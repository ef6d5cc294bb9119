import Posthaste.Imap.MessageIds
import Posthaste.Imap.Redelivery
import Posthaste.Library.Table

open posthaste.model effects

namespace posthaste.imap.mutation

section Draft

variable {Mail α : Type}

/-- The rows of an account's message locations, under the faults of its database. -/
structure LocationStore where
  rows : Table ImapMessageLocation ImapMessageLocation.place
  names : MailboxId → Except StoreError (Option String)
  list_fault : Option StoreError
  put_fault : Option StoreError

namespace LocationStore

variable (store : LocationStore)

/-- `ORDER BY mailbox_id` -/
def list_imap_message_locations (message_id : MessageId) : Except StoreError (List ImapMessageLocation) :=
  match store.list_fault with
  | some error => .error error
  | none => .ok ((store.rows.rows.filter (·.message_id = message_id)).insertionSort fun first second =>
      first.mailbox_id ≤ second.mailbox_id)

def put_imap_message_location (location : ImapMessageLocation) : Except StoreError LocationStore :=
  match store.put_fault with
  | some error => .error error
  | none => .ok { store with rows := store.rows.put location }

def reader : LocationReader := ⟨store.list_imap_message_locations, store.names⟩

end LocationStore

namespace LiveImapSmtpGateway

variable (gateway : LiveImapSmtpGateway)

def drafts_mailbox : Except GatewayError DiscoveredImapMailbox :=
  match gateway.mailboxes.find? fun mailbox => mailbox.selectable && mailbox.role = some "drafts" with
  | some mailbox => .ok mailbox
  | none => .error (.Rejected "no selectable IMAP Drafts mailbox was discovered")

/-- The gateway as it reads the rows there are now. -/
def onStore (store : Option LocationStore) : LiveImapSmtpGateway := { gateway with store := store.map LocationStore.reader }

/-- The locations the store has of a draft, none without a store. -/
def stored (message_id : MessageId) : Except GatewayError (List ImapMessageLocation) :=
  match gateway.store with
  | none => .ok []
  | some store => (store.list_imap_message_locations message_id).mapError store_error_to_gateway

/-- A decoded location under the name its mailbox was discovered by. -/
def discovered (message_id : MessageId) (location : ImapMessageLocation) :
    Except GatewayError (String × ImapMessageLocation) :=
  match gateway.mailboxes.find? (·.id = location.mailbox_id) with
  | some mailbox => .ok (mailbox.name, location)
  | none => .error (.Rejected s!"unknown IMAP mailbox for draft {message_id} deletion")

end LiveImapSmtpGateway

def delete_imap_draft (gateway : LiveImapSmtpGateway) (message_id : MessageId) : Push Mail Unit := do
  let locations ← Push.of (gateway.stored message_id)
  match locations with
  | location :: locations => removeFrom gateway gateway.named (location :: locations)
  | [] =>
    match decode_imap_message_location message_id with
    -- no location and no UID in the id: it is deleted already
    | none => pure ()
    | some location => do
      let found ← Push.of (gateway.discovered message_id location)
      remove_imap_message_from_mailbox gateway found.1 found.2

/-- The session of a save and the location rows. -/
abbrev Saving (Mail α : Type) := EStateM GatewayError (Session Mail × Option LocationStore) α

/-- A step that leaves the rows alone. -/
def Saving.serve (push : Push Mail α) : Saving Mail α := fun state =>
  match push.run state.1 with
  | .ok value after => .ok value (after, state.2)
  | .error error after => .error error (after, state.2)

def draftFlags (name : String) : Bool := name = "\\draft"

/-- A new copy is filed. `reported` is the UID the client makes out of the answer. -/
def Connection.appendTo (reported : RemoteMailbox Mail → Option ImapUid) (connection : Connection Mail) (target : String)
    (copy : RemoteCopy Mail) : Except String (Option ImapUid × Connection Mail) :=
  match connection.remote target with
  | none => .error noSuchMailbox
  | some mailbox => .ok (reported mailbox, connection.deliver target copy)

/-- The copy under a UID, if it is still there. -/
def Connection.fetchCopy (connection : Connection Mail) (uid : ImapUid) :
    Except String (Option Mail × Connection Mail) :=
  .ok ((connection.copyAt uid).map RemoteCopy.mail, connection)

def examine_selected_mailbox (mailbox_name : String) : Imap Mail ImapUidValidity := do
  match ← command "examine" (·.select mailbox_name) with
  | none => throw (.MissingSelectData "UIDVALIDITY")
  | some uid_validity => pure uid_validity

/-- Where the header of a copy projects to, as sync projects it. -/
abbrev Profile (Mail : Type) := ImapUidValidity → ImapUid → Mail → Except ImapAdapterError (Option ImapMessageLocation)

variable (project : Profile Mail)

/-- The projected header of the copy under a UID, `none` when the copy is gone. -/
def fetch_saved_header (uid_validity : ImapUidValidity) (uid : ImapUid) : Imap Mail (Option ImapMessageLocation) := do
  match ← command "fetch" (·.fetchCopy uid) with
  | none => pure none
  | some mail => do
    let location ← Imap.of (project uid_validity uid mail)
    pure (location.filter (·.uid = uid))

def put_location (store : LocationStore) (location : ImapMessageLocation) : Saving Mail MessageId := fun state =>
  match store.put_imap_message_location location with
  | .error error => .error (store_error_to_gateway error) state
  | .ok store => .ok location.message_id (state.1, some store)

def register_saved_draft_location (uid_validity : ImapUidValidity) (uid : ImapUid) (uid_fallback_id : MessageId) :
    Saving Mail MessageId := do
  match (← get).2 with
  | none => pure uid_fallback_id
  | some store => do
    match ← Saving.serve ((fetch_saved_header project uid_validity uid).adaptExcept imap_error_to_gateway) with
    | none => pure uid_fallback_id
    | some location => put_location store location

variable (gateway : LiveImapSmtpGateway) (reported : RemoteMailbox Mail → Option ImapUid)

/-- The upload of a composed draft. -/
def file_draft (drafts : DiscoveredImapMailbox) (raw_message : Mail) : Saving Mail MessageId := do
  let uid_validity ← Saving.serve ((examine_selected_mailbox drafts.name).adaptExcept imap_error_to_gateway)
  let uid ← Saving.serve ((command "append"
    (Connection.appendTo reported · drafts.name ⟨raw_message, draftFlags⟩)).adaptExcept imap_error_to_gateway)
  match uid with
  | none => throw (.Rejected "IMAP APPEND did not yield a draft UID")
  | some uid => register_saved_draft_location project uid_validity uid (imap_message_id drafts.id uid_validity uid)

/-- The version a save replaces goes once the new one is filed. -/
def replaceDraft : Option MessageId → Saving Mail Unit
  | none => pure ()
  | some replaced => do
    let store := (← get).2
    Saving.serve (delete_imap_draft (gateway.onStore store) replaced)

def save_imap_draft (composed : Except ImapAdapterError Mail) (replaced : Option MessageId) : Saving Mail MessageId := do
  let drafts ← Saving.serve (Push.of gateway.drafts_mailbox)
  let raw_message ← Saving.serve (Push.of (composed.mapError imap_error_to_gateway))
  let new_message_id ← file_draft project reported drafts raw_message
  replaceDraft gateway replaced
  return new_message_id

section Deletion

variable {Mail : Type} {gateway : LiveImapSmtpGateway} {message_id : MessageId}

/-- What a deletion looks for, place after place. -/
def LiveImapSmtpGateway.draftPlaces (gateway : LiveImapSmtpGateway) (message_id : MessageId) :
    List (Except GatewayError (String × ImapMessageLocation)) :=
  match gateway.stored message_id with
  | .error error => [.error error]
  | .ok (location :: locations) => (location :: locations).map gateway.named
  | .ok [] =>
    match decode_imap_message_location message_id with
    | none => []
    | some location => [gateway.discovered message_id location]

theorem removeFrom_map (locations : List ImapMessageLocation) :
    (removeFrom gateway (fun found => found) (locations.map gateway.named) : Push Mail Unit) =
      removeFrom gateway gateway.named locations := by
  induction locations with
  | nil => rfl
  | cons location locations ih => rw [List.map_cons, removeFrom_cons, removeFrom_cons, ih]

theorem delete_eq_removeFrom :
    (delete_imap_draft gateway message_id : Push Mail Unit) =
      removeFrom gateway (fun found => found) (gateway.draftPlaces message_id) := by
  unfold delete_imap_draft LiveImapSmtpGateway.draftPlaces
  cases gateway.stored message_id with
  | error error => rfl
  | ok locations =>
    cases locations with
    | cons location locations =>
      rw [removeFrom_map]
      rfl
    | nil =>
      simp only [Push.of, pure_bind]
      cases decode_imap_message_location message_id with
      | none => rfl
      | some location =>
        simp only
        rw [removeFrom_cons]
        congr 1
        funext found
        exact (bind_pure _).symm

/-- The deletion of a draft is delivered at least once: after any tries, each cut off at whatever command, one
    that is not disturbed comes to the same and leaves the same server as if it had been the first. -/
theorem draft_deletion_redelivered (gateway : LiveImapSmtpGateway) (message_id : MessageId) (remote : Remote Mail)
    (attempts : List Attempt) (selected selected' : Option String) :
    undisturbed (delete_imap_draft gateway message_id) selected
        (delivered (delete_imap_draft gateway message_id) remote attempts) =
      undisturbed (delete_imap_draft gateway message_id) selected' remote := by
  have hpush : (delete_imap_draft gateway message_id : Push Mail Unit) =
      removeFrom gateway (fun found => found) (gateway.draftPlaces message_id) >>= fun _ => pure () := by
    rw [delete_eq_removeFrom]
    exact (bind_pure _).symm
  rw [hpush]
  exact removal_redelivered _ _ remote attempts selected selected'

end Deletion

section Saving

variable {Mail α : Type} {relation : Remote Mail → Remote Mail → Prop} [IsPreorder (Remote Mail) relation]

/-- A relation on the server, as one on saves. -/
abbrev OnSaved (relation : Remote Mail → Remote Mail → Prop) :
    Session Mail × Option LocationStore → Session Mail × Option LocationStore → Prop :=
  Order.Preimage (fun state => state.1.remote) relation

section Serve

variable {push : Push Mail α} {state after : Session Mail × Option LocationStore}

omit [IsPreorder (Remote Mail) relation] in
theorem serve_along (hpush : Along (OnRemote relation) push) : Along (OnSaved relation) (Saving.serve push) := by
  intro before
  have hstep := hpush before.1
  show OnSaved relation before (final (Saving.serve push before))
  unfold Saving.serve
  cases hrun : push.run before.1 with
  | ok value session =>
    rw [hrun] at hstep
    exact hstep
  | error error session =>
    rw [hrun] at hstep
    exact hstep

theorem serve_ok {value : α} (hrun : (Saving.serve push).run state = .ok value after) :
    push.run state.1 = .ok value after.1 ∧ after.2 = state.2 := by
  change Saving.serve push state = _ at hrun
  unfold Saving.serve at hrun
  cases hpush : push.run state.1 with
  | ok result session =>
    rw [hpush] at hrun
    cases hrun
    exact ⟨rfl, rfl⟩
  | error error session =>
    rw [hpush] at hrun
    cases hrun

end Serve

section Filing

variable {project : Profile Mail} {reported : RemoteMailbox Mail → Option ImapUid} {drafts : DiscoveredImapMailbox}
  {raw_message : Mail} {session next : Session Mail} {state after : Session Mail × Option LocationStore}

theorem appendTo_served {connection served : Connection Mail} {target : String} {copy : RemoteCopy Mail}
    {uid : Option ImapUid} (hserved : connection.appendTo reported target copy = .ok (uid, served)) :
    ∃ mailbox, connection.remote target = some mailbox ∧ uid = reported mailbox ∧
      served = connection.deliver target copy := by
  unfold Connection.appendTo at hserved
  cases hmailbox : connection.remote target with
  | none =>
    rw [hmailbox] at hserved
    cases hserved
  | some mailbox =>
    rw [hmailbox] at hserved
    cases hserved
    exact ⟨mailbox, rfl, rfl, rfl⟩

theorem examine_along {name : String} :
    Along (OnRemote (Without [])) (examine_selected_mailbox name : Imap Mail ImapUidValidity) := by
  unfold examine_selected_mailbox
  refine Along.bind (command_along fun connection reply served hserved => ?_) fun selected => ?_
  · rw [(select_served hserved).1]
    exact refl_of (Without _) _
  · cases selected with
    | none => exact Along.throw _
    | some uid_validity => exact Along.pure _

theorem examine_ok {name : String} {uid_validity : ImapUidValidity}
    (hrun : (examine_selected_mailbox name).run session = .ok uid_validity next) :
    next.connection = session.connection.entered name ∧ session.remote.epoch name = some uid_validity := by
  unfold examine_selected_mailbox at hrun
  obtain ⟨selected, middle, hselect, hrest⟩ := run_bind_eq_ok_iff.mp hrun
  obtain ⟨hmiddle, hepoch⟩ := select_served (served_of_command hselect)
  cases selected with
  | none => cases hrest
  | some found =>
    cases hrest
    exact ⟨hmiddle, hepoch⟩

theorem append_along {name : String} {copy : RemoteCopy Mail} :
    Along (OnRemote (Without [])) (command "append" (Connection.appendTo reported · name copy)) := by
  refine command_along fun connection reply served hserved => ?_
  obtain ⟨mailbox, hmailbox, _, rfl⟩ := appendTo_served hserved
  exact without_append hmailbox

theorem imap_along {σ : Type} {relation : Session σ → Session σ → Prop} [IsPreorder (Session σ) relation]
    (value : Except ImapAdapterError α) : Along relation (Imap.of value : Imap σ α) := by
  cases value with
  | ok value => exact Along.pure value
  | error error => exact Along.throw error

theorem fetch_along {uid_validity : ImapUidValidity} {uid : ImapUid} :
    Along (OnRemote (Without [])) (fetch_saved_header project uid_validity uid) := by
  unfold fetch_saved_header
  refine Along.bind (command_along fun connection reply served hserved => ?_) fun mail => ?_
  · cases hserved
    exact refl_of (Without _) _
  · cases mail with
    | none => exact Along.pure _
    | some mail => exact Along.bind (imap_along _) fun _ => Along.pure _

/-- The header that comes back is that of the copy under the UID. -/
theorem fetch_ok {uid_validity : ImapUidValidity} {uid : ImapUid} {location : Option ImapMessageLocation}
    (hrun : (fetch_saved_header project uid_validity uid).run session = .ok location next) :
    next.connection = session.connection ∧ (location = none ∨ ∃ copy found,
      session.connection.copyAt uid = some copy ∧ project uid_validity uid copy.mail = .ok (some found) ∧
        location = some found) := by
  unfold fetch_saved_header at hrun
  obtain ⟨mail, middle, hfetch, hrest⟩ := run_bind_eq_ok_iff.mp hrun
  have hserved := served_of_command hfetch
  unfold Connection.fetchCopy at hserved
  rw [Except.ok.injEq, Prod.mk.injEq] at hserved
  obtain ⟨hmail, hconnection⟩ := hserved
  cases mail with
  | none =>
    cases hrest
    exact ⟨hconnection.symm, Or.inl rfl⟩
  | some mail =>
    obtain ⟨copy, hcopy, rfl⟩ := Option.map_eq_some_iff.mp hmail
    cases hproject : project uid_validity uid copy.mail with
    | error error =>
      simp only [hproject, Imap.of] at hrest
      cases hrest
    | ok found =>
      simp only [hproject, Imap.of, pure_bind] at hrest
      cases hrest
      refine ⟨hconnection.symm, ?_⟩
      cases hfound : found.filter fun location => decide (location.uid = uid) with
      | none => exact Or.inl rfl
      | some location =>
        obtain rfl := (Option.filter_eq_some_iff.mp hfound).1
        exact Or.inr ⟨copy, location, hcopy, hproject, rfl⟩

/-- Registering a location leaves the server alone. -/
theorem register_along {uid_validity : ImapUidValidity} {uid : ImapUid} {uid_fallback_id : MessageId} :
    Along (OnSaved (Without [])) (register_saved_draft_location project uid_validity uid uid_fallback_id) := by
  intro before
  obtain ⟨session, store⟩ := before
  cases store with
  | none => exact refl_of (OnSaved (Without [])) (session, none)
  | some store =>
    show OnSaved (Without []) _ (final ((Saving.serve _ >>= _).run (session, some store)))
    refine Along.bind (serve_along (Along.adaptExcept fetch_along _)) (fun location => ?_) (session, some store)
    cases location with
    | none => exact Along.pure _
    | some location =>
      intro state
      simp only
      show OnSaved (Without []) state (final (put_location store location state))
      unfold put_location
      cases store.put_imap_message_location location with
      | error error => exact refl_of (Without []) state.1.remote
      | ok store => exact refl_of (Without []) state.1.remote

/-- What the rows are once a draft is registered: they stay, or get the location its header projects to. -/
theorem register_ok {uid_validity : ImapUidValidity} {uid : ImapUid} {uid_fallback_id new_message_id : MessageId}
    (hrun : (register_saved_draft_location project uid_validity uid uid_fallback_id).run state =
      .ok new_message_id after) :
    after.1.connection = state.1.connection ∧ (after.2 = state.2 ∨ ∃ store copy location, state.2 = some store ∧
      state.1.connection.copyAt uid = some copy ∧ project uid_validity uid copy.mail = .ok (some location) ∧
        after.2 = some { store with rows := store.rows.put location }) := by
  obtain ⟨session, store⟩ := state
  cases store with
  | none =>
    cases hrun
    exact ⟨rfl, Or.inl rfl⟩
  | some store =>
    change (Saving.serve _ >>= _).run (session, some store) = _ at hrun
    obtain ⟨location, middle, hserve, hrest⟩ := run_bind_eq_ok_iff.mp hrun
    obtain ⟨hfetch, hstore⟩ := serve_ok hserve
    obtain ⟨hconnection, hlocation⟩ := fetch_ok (ok_of_adaptExcept hfetch)
    cases location with
    | none =>
      cases hrest
      exact ⟨hconnection, Or.inl hstore⟩
    | some location =>
      change put_location store location middle = _ at hrest
      unfold put_location LocationStore.put_imap_message_location at hrest
      cases hfault : store.put_fault with
      | some error =>
        rw [hfault] at hrest
        cases hrest
      | none =>
        rw [hfault] at hrest
        cases hrest
        obtain hnone | ⟨copy, found, hcopy, hproject, hfound⟩ := hlocation
        · cases hnone
        · cases hfound
          exact ⟨hconnection, Or.inr ⟨store, copy, location, rfl, hcopy, hproject, by rw [hfault]⟩⟩

theorem file_along : Along (OnSaved (Without [])) (file_draft project reported drafts raw_message) := by
  unfold file_draft
  refine Along.bind (serve_along (Along.adaptExcept examine_along _)) fun uid_validity => ?_
  refine Along.bind (serve_along (Along.adaptExcept append_along _)) fun uid => ?_
  cases uid with
  | none => exact Along.throw _
  | some uid => exact register_along

/-- A filed draft is held under the next UID, and the rows got at most the location it projects to. -/
theorem file_ok (hreported : ∀ mailbox uid, reported mailbox = some uid → uid = mailbox.uid_next)
    {new_message_id : MessageId} (hrun : (file_draft project reported drafts raw_message).run state = .ok new_message_id after) :
    ∃ mailbox, state.1.remote drafts.name = some mailbox ∧
      after.1.remote = state.1.remote.alter drafts.name (·.append ⟨raw_message, draftFlags⟩) ∧
      (after.2 = state.2 ∨ ∃ store uid_validity location, state.2 = some store ∧
        mailbox.uid_validity = some uid_validity ∧
          project uid_validity mailbox.uid_next raw_message = .ok (some location) ∧
            after.2 = some { store with rows := store.rows.put location }) := by
  unfold file_draft at hrun
  obtain ⟨uid_validity, examined, hexamine, hrest⟩ := run_bind_eq_ok_iff.mp hrun
  obtain ⟨hexamined, hexamined_store⟩ := serve_ok hexamine
  obtain ⟨hentered, hepoch⟩ := examine_ok (ok_of_adaptExcept hexamined)
  obtain ⟨uid, filed, happend, hregister⟩ := run_bind_eq_ok_iff.mp hrest
  obtain ⟨hfiled, hfiled_store⟩ := serve_ok happend
  obtain ⟨mailbox, hmailbox, huid, hdelivered⟩ := appendTo_served (served_of_command (ok_of_adaptExcept hfiled))
  rw [hentered] at hmailbox hdelivered
  change state.1.remote drafts.name = some mailbox at hmailbox
  unfold Remote.epoch at hepoch
  rw [hmailbox, Option.bind_some] at hepoch
  cases uid with
  | none => cases hregister
  | some uid =>
    obtain rfl := hreported mailbox uid huid.symm
    obtain ⟨hconnection, hrows⟩ := register_ok hregister
    have hremote : after.1.remote = state.1.remote.alter drafts.name (·.append ⟨raw_message, draftFlags⟩) := by
      show after.1.connection.remote = _
      rw [hconnection, hdelivered]
      rfl
    refine ⟨mailbox, hmailbox, hremote, ?_⟩
    rw [hfiled_store, hexamined_store] at hrows
    obtain hsame | ⟨store, copy, location, hstore, hcopy, hproject, hafter⟩ := hrows
    · exact Or.inl hsame
    · refine Or.inr ⟨store, uid_validity, location, hstore, hepoch, ?_, hafter⟩
      have hheld : (state.1.remote.alter drafts.name (·.append ⟨raw_message, draftFlags⟩)).mailAt
          (drafts.name, mailbox.uid_next) = some raw_message := by
        rw [mailAt_append hmailbox, if_pos rfl]
      rw [hdelivered] at hcopy
      change (state.1.remote.alter drafts.name (·.append ⟨raw_message, draftFlags⟩)).copyAt
        (drafts.name, mailbox.uid_next) = some copy at hcopy
      unfold Remote.mailAt at hheld
      rw [hcopy, Option.map_some, Option.some_inj] at hheld
      exact hheld ▸ hproject

end Filing

section Saved

variable {project : Profile Mail} {reported : RemoteMailbox Mail → Option ImapUid}
  {composed : Except ImapAdapterError Mail} {state : Session Mail × Option LocationStore}

/-- The copies that the deletion of a draft would get to. -/
def draftAddresses (gateway : LiveImapSmtpGateway) (store : Option LocationStore) (message_id : MessageId)
    (remote : Remote Mail) : List Address :=
  reached (fun found => found) remote ((gateway.onStore store).draftPlaces message_id)

/-- A location of another message does not count for a draft. -/
theorem draftPlaces_put (gateway : LiveImapSmtpGateway) {store : LocationStore} {location : ImapMessageLocation}
    {message_id : MessageId} (hother : location.message_id ≠ message_id) :
    (gateway.onStore (some { store with rows := store.rows.put location })).draftPlaces message_id =
      (gateway.onStore (some store)).draftPlaces message_id := by
  have hlisted : LocationStore.list_imap_message_locations { store with rows := store.rows.put location } message_id =
      store.list_imap_message_locations message_id := by
    unfold LocationStore.list_imap_message_locations
    simp only
    have hrows : (store.rows.put location).rows.filter (fun stored => decide (stored.message_id = message_id)) =
        store.rows.rows.filter fun stored => decide (stored.message_id = message_id) := by
      refine Table.filter_put (decide_eq_false hother) fun stored _ hkey => ?_
      have hmessage : stored.message_id = location.message_id := congrArg Prod.fst hkey
      rw [hmessage]
      exact decide_eq_false hother
    rw [hrows]
  have hstored : (gateway.onStore (some { store with rows := store.rows.put location })).stored message_id =
      (gateway.onStore (some store)).stored message_id := by
    unfold LiveImapSmtpGateway.stored LiveImapSmtpGateway.onStore LocationStore.reader
    simp only [Option.map_some, hlisted]
  unfold LiveImapSmtpGateway.draftPlaces
  rw [hstored]
  rfl

theorem final_serve {push : Push Mail α} : final ((Saving.serve push).run state) = (final (push.run state.1), state.2) := by
  show final (Saving.serve push state) = _
  unfold Saving.serve
  cases push.run state.1 <;> rfl

/-- However it ends, the deletion of the version replaced touches only the copies it gets to. -/
theorem replaceDraft_without (gateway : LiveImapSmtpGateway) (replaced : MessageId) :
    Without (draftAddresses gateway state.2 replaced state.1.remote) state.1.remote
      (final ((replaceDraft gateway (some replaced)).run state)).1.remote := by
  have hrun : (replaceDraft gateway (some replaced)).run state =
      (Saving.serve (delete_imap_draft (gateway.onStore state.2) replaced)).run state := rfl
  rw [hrun, final_serve, delete_eq_removeFrom]
  exact removeFrom_without _ _ _ _

/-- The copies that a save may do away with. -/
def replacedAddresses (gateway : LiveImapSmtpGateway) (state : Session Mail × Option LocationStore)
    (replaced : Option MessageId) : List Address :=
  match replaced with
  | none => []
  | some message_id => draftAddresses gateway state.2 message_id state.1.remote

/-- Saving a draft never loses one: cut off anywhere, it leaves every copy outside the version it replaces, and all
    of that version too unless the new one is held; and if it returns, the new version is held. -/
theorem save_imap_draft_safe (gateway : LiveImapSmtpGateway) (replaced : Option MessageId) {raw_message : Mail}
    (hcomposed : composed = .ok raw_message)
    (hreported : ∀ mailbox uid, reported mailbox = some uid → uid = mailbox.uid_next)
    (hcanonical : ∀ drafts mailbox uid_validity location, gateway.drafts_mailbox = .ok drafts →
      state.1.remote drafts.name = some mailbox → mailbox.uid_validity = some uid_validity →
      project uid_validity mailbox.uid_next raw_message = .ok (some location) → replaced ≠ some location.message_id)
    (hissued : ∀ address ∈ replacedAddresses gateway state replaced, state.1.remote.Issued address) :
    let result := (save_imap_draft project gateway reported composed replaced).run state
    Without (replacedAddresses gateway state replaced) state.1.remote (final result).1.remote ∧
      (Without [] state.1.remote (final result).1.remote ∨ (final result).1.remote.Holds raw_message) ∧
      ∀ message_id after, result = .ok message_id after → after.1.remote.Holds raw_message := by
  intro result
  have hnothing : Without [] state.1.remote state.1.remote := refl_of (Without []) _
  cases hdrafts : gateway.drafts_mailbox with
  | error error =>
    have hresult : result = .error error state := by
      unfold result save_imap_draft
      rw [hdrafts]
      rfl
    rw [hresult]
    exact ⟨hnothing.mono (List.nil_subset _), Or.inl hnothing, nofun⟩
  | ok drafts =>
    have hresult : result = ((file_draft project reported drafts raw_message) >>= fun new_message_id =>
        replaceDraft gateway replaced >>= fun _ => pure new_message_id).run state := by
      unfold result save_imap_draft
      rw [hdrafts, hcomposed]
      rfl
    rw [hresult]
    have hfiling : Without [] state.1.remote (final ((file_draft project reported drafts raw_message).run state)).1.remote :=
      file_along state
    cases hfile : (file_draft project reported drafts raw_message).run state with
    | error error middle =>
      rw [run_bind_of_error hfile]
      rw [hfile] at hfiling
      exact ⟨hfiling.mono (List.nil_subset _), Or.inl hfiling, nofun⟩
    | ok new_message_id middle =>
      rw [run_bind_of_ok hfile]
      rw [hfile] at hfiling
      change Without [] state.1.remote middle.1.remote at hfiling
      obtain ⟨mailbox, hmailbox, hremote, hrows⟩ := file_ok hreported hfile
      have hheld : middle.1.remote.mailAt (drafts.name, mailbox.uid_next) = some raw_message := by
        rw [hremote, mailAt_append hmailbox, if_pos rfl]
      -- the version replaced is where it was, and not where the new one is
      have hremoval : Without (replacedAddresses gateway state replaced) middle.1.remote
          (final ((replaceDraft gateway replaced).run middle)).1.remote := by
        cases replaced with
        | none => exact refl_of (Without _) _
        | some message_id =>
          have hplaces : (gateway.onStore middle.2).draftPlaces message_id = (gateway.onStore state.2).draftPlaces message_id := by
            obtain hsame | ⟨store, uid_validity, location, hstore, hepoch, hproject, hafter⟩ := hrows
            · rw [hsame]
            · rw [hafter, hstore]
              exact draftPlaces_put gateway fun hsame =>
                hcanonical _ _ _ _ hdrafts hmailbox hepoch hproject (congrArg some hsame.symm)
          have hwithout := @replaceDraft_without _ middle gateway message_id
          unfold draftAddresses at hwithout
          rw [hplaces, reached_congr hfiling.mailboxes] at hwithout
          exact hwithout
      have hnew : (drafts.name, mailbox.uid_next) ∉ replacedAddresses gateway state replaced :=
        fun hmem => not_issued_next hmailbox (hissued _ hmem)
      have hkept := hremoval.kept _ _ hnew hheld
      have hwhole := trans_of (Without _) (hfiling.mono (List.nil_subset _)) hremoval
      cases hreplace : (replaceDraft gateway replaced).run middle with
      | error error after =>
        rw [run_bind_of_error hreplace]
        rw [hreplace] at hkept hwhole
        exact ⟨hwhole, Or.inr ⟨_, hkept⟩, nofun⟩
      | ok _ after =>
        rw [run_bind_of_ok hreplace]
        rw [hreplace] at hkept hwhole
        refine ⟨hwhole, Or.inr ⟨_, hkept⟩, ?_⟩
        intro message_id saved hsaved
        cases hsaved
        exact ⟨_, hkept⟩

section Example

def draftsMailbox : DiscoveredImapMailbox := ⟨"d", "Drafts", some "drafts", true, []⟩

def draftGateway : LiveImapSmtpGateway := ⟨⟨false, true⟩, [draftsMailbox], none⟩

/-- A server with one draft. -/
def oneDraft : Remote String := fun name =>
  if name = "Drafts" then some (RemoteMailbox.append ⟨some 7, 1, fun _ => none, fun _ _ => rfl⟩ ⟨"old", draftFlags⟩)
  else none

def oneDraftState : Session String × Option LocationStore := (⟨⟨oneDraft, none⟩, []⟩, none)

theorem save_imap_draft_safe_oneDraft :
    let result := (save_imap_draft (fun uid_validity uid _ => .ok (some
        ⟨imap_message_id "d" uid_validity uid, "d", uid_validity, uid, none⟩)) draftGateway
      (fun mailbox => some mailbox.uid_next) (.ok "new") (some (imap_message_id "d" 7 1))).run oneDraftState
    Without (replacedAddresses draftGateway oneDraftState (some (imap_message_id "d" 7 1))) oneDraft
        (final result).1.remote ∧
      (Without [] oneDraft (final result).1.remote ∨ (final result).1.remote.Holds "new") ∧
      ∀ message_id after, result = .ok message_id after → after.1.remote.Holds "new" := by
  refine @save_imap_draft_safe _ _ _ _ oneDraftState draftGateway (some (imap_message_id "d" 7 1)) "new" rfl ?_ ?_ ?_
  · intro mailbox uid hreported
    exact (Option.some_inj.mp hreported).symm
  · rintro drafts mailbox uid_validity location ⟨⟩ ⟨⟩ ⟨⟩ ⟨⟩
    decide
  · have hplaces : (draftGateway.onStore none).draftPlaces (imap_message_id "d" 7 1) =
        [.ok ("Drafts", ⟨imap_message_id "d" 7 1, "d", 7, 1, none⟩)] := by
      unfold LiveImapSmtpGateway.draftPlaces LiveImapSmtpGateway.stored
      rw [decode_imap_message_id "d" (by decide) (by decide)]
      rfl
    intro address haddress
    change address ∈ reached (fun found => found) oneDraft
      ((draftGateway.onStore none).draftPlaces (imap_message_id "d" 7 1)) at haddress
    rw [hplaces] at haddress
    obtain rfl := List.mem_singleton.mp haddress
    exact ⟨_, rfl, by decide⟩

end Example

end Saved

end Saving

end Draft

end posthaste.imap.mutation
