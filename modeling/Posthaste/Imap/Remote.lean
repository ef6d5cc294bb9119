import Posthaste.DomainModel.Imap
import Posthaste.Imap.SessionSlot
import Posthaste.Library.Ascii
import Posthaste.Library.Effects

open posthaste.model effects

namespace posthaste.imap.mutation

section Remote

/-- A copy of a mail in a mailbox on the server, with its flags by their names in lower case. -/
structure RemoteCopy (Mail : Type) where
  mail : Mail
  flags : String → Bool

inductive StoreType where
  | Add
  | Remove
  deriving DecidableEq

namespace RemoteCopy

variable {Mail : Type} (copy : RemoteCopy Mail)

def deleted : Bool := copy.flags "\\deleted"

/-- The server knows a flag by its name in any case. -/
def stored (store_type : StoreType) (names : List String) : RemoteCopy Mail where
  mail := copy.mail
  flags name :=
    match store_type with
    | .Add => copy.flags name || decide (name ∈ names.map str.to_ascii_lowercase)
    | .Remove => copy.flags name && !decide (name ∈ names.map str.to_ascii_lowercase)

def expunged : Option (RemoteCopy Mail) := if copy.deleted then none else some copy

end RemoteCopy

/-- A mailbox on the server. UIDs from `uid_next` on have not been given out. -/
@[ext]
structure RemoteMailbox (Mail : Type) where
  uid_validity : Option ImapUidValidity
  uid_next : ImapUid
  copy : ImapUid → Option (RemoteCopy Mail)
  copy_unused : ∀ uid, uid_next ≤ uid → copy uid = none

/-- The mailboxes of the server, by name. -/
abbrev Remote (Mail : Type) := String → Option (RemoteMailbox Mail)

/-- A mailbox name and a UID in it. -/
abbrev Address := String × ImapUid

variable {Mail : Type}

namespace RemoteMailbox

variable (mailbox : RemoteMailbox Mail)

/-- A copy is filed under the next UID. -/
def append (copy : RemoteCopy Mail) : RemoteMailbox Mail where
  uid_validity := mailbox.uid_validity
  uid_next := mailbox.uid_next + 1
  copy := Function.update mailbox.copy mailbox.uid_next (some copy)
  copy_unused uid hunused := by
    rw [Function.update_of_ne (Nat.ne_of_gt hunused)]
    exact mailbox.copy_unused uid (Nat.le_of_succ_le hunused)

/-- A copy is replaced by one with other flags, or taken out. -/
def revise (uid : ImapUid) (change : RemoteCopy Mail → Option (RemoteCopy Mail)) : RemoteMailbox Mail where
  uid_validity := mailbox.uid_validity
  uid_next := mailbox.uid_next
  copy := Function.update mailbox.copy uid ((mailbox.copy uid).bind change)
  copy_unused other hunused := by
    have hnone := mailbox.copy_unused other hunused
    by_cases hother : other = uid
    · rw [hother, Function.update_self, ← hother, hnone, Option.bind_none]
    · rw [Function.update_of_ne hother, hnone]

end RemoteMailbox

namespace Remote

variable (remote : Remote Mail)

def alter (name : String) (change : RemoteMailbox Mail → RemoteMailbox Mail) : Remote Mail :=
  Function.update remote name ((remote name).map change)

def epoch (name : String) : Option ImapUidValidity := (remote name).bind RemoteMailbox.uid_validity

def copyAt (address : Address) : Option (RemoteCopy Mail) := (remote address.1).bind (·.copy address.2)

def mailAt (address : Address) : Option Mail := (remote.copyAt address).map RemoteCopy.mail

/-- Some mailbox holds a copy of the mail. -/
def Holds (mail : Mail) : Prop := ∃ address, remote.mailAt address = some mail

/-- The UID has been given out in the mailbox. -/
def Issued (address : Address) : Prop := ∃ mailbox, remote address.1 = some mailbox ∧ address.2 < mailbox.uid_next

/-- The server lets a location be worked on: its mailbox is still in the epoch the location was read in. -/
def Answers (name : String) (location : ImapMessageLocation) : Prop :=
  remote.epoch name = some location.uid_validity ∧ location.uid ≠ 0

instance (name : String) (location : ImapMessageLocation) : Decidable (remote.Answers name location) :=
  inferInstanceAs (Decidable (_ ∧ _))

end Remote

end Remote

section Session

/-- The server and the mailbox it has selected for this session. -/
structure Connection (Mail : Type) where
  remote : Remote Mail
  selected : Option String

/-- What becomes of a command beside what the server makes of it: it is answered, it is
    refused, or its answer is lost, before or after the server has carried it out. -/
inductive Fate where
  | answered
  | refused (error : String)
  | broken (error : String) (executed : Bool)
  | elapsed (executed : Bool)

structure Session (Mail : Type) where
  connection : Connection Mail
  fates : List Fate

abbrev Imap (Mail ρ : Type) := EStateM ImapAdapterError (Session Mail) ρ

variable {Mail ρ : Type}

abbrev Session.remote (session : Session Mail) : Remote Mail := session.connection.remote

/-- The answer to a command and the connection after it. -/
def Fate.strike (before : Connection Mail) (served : Except String (ρ × Connection Mail)) :
    Fate → Outcome ρ × Connection Mail
  | .refused error => (.refused error, before)
  | .broken error false => (.broken error, before)
  | .elapsed false => (.elapsed, before)
  | .answered =>
    match served with
    | .ok (reply, after) => (.replied reply, after)
    | .error error => (.refused error, before)
  | .broken error true =>
    match served with
    | .ok (_, after) => (.broken error, after)
    | .error _ => (.broken error, before)
  | .elapsed true =>
    match served with
    | .ok (_, after) => (.elapsed, after)
    | .error _ => (.elapsed, before)

/-- Send a command and await its answer under the deadline. A session whose fates have run out is not disturbed. -/
def command (operation : String) (serve : Connection Mail → Except String (ρ × Connection Mail)) : Imap Mail ρ :=
  fun session =>
    let struck := (session.fates.headD .answered).strike session.connection (serve session.connection)
    let after : Session Mail := ⟨struck.2, session.fates.tail⟩
    match with_deadline operation struck.1 with
    | .ok reply => .ok reply after
    | .error error => .error error after

def noSuchMailbox : String := "no such mailbox"

/-! What the server makes of the commands. -/

namespace Connection

variable (connection : Connection Mail)

def copyAt (uid : ImapUid) : Option (RemoteCopy Mail) :=
  connection.selected.bind fun name => connection.remote.copyAt (name, uid)

/-- Change a copy in the selected mailbox. -/
def revise (uid : ImapUid) (change : RemoteCopy Mail → Option (RemoteCopy Mail)) : Connection Mail :=
  match connection.selected with
  | none => connection
  | some name => { connection with remote := connection.remote.alter name (·.revise uid change) }

def deliver (target : String) (copy : RemoteCopy Mail) : Connection Mail :=
  { connection with remote := connection.remote.alter target (·.append copy) }

def entered (mailbox_name : String) : Connection Mail := { connection with selected := some mailbox_name }

def select (mailbox_name : String) : Except String (Option ImapUidValidity × Connection Mail) :=
  match connection.remote mailbox_name with
  | none => .error noSuchMailbox
  | some mailbox => .ok (mailbox.uid_validity, connection.entered mailbox_name)

/-- The UIDs the answer names. A UID that is not there is left out. -/
def fetch (uid : ImapUid) : Except String (List ImapUid × Connection Mail) :=
  .ok (if (connection.copyAt uid).isSome then [uid] else [], connection)

def copyTo (uid : ImapUid) (target : String) : Except String (Unit × Connection Mail) :=
  match connection.remote target, connection.copyAt uid with
  | none, _ => .error noSuchMailbox
  | some _, none => .ok ((), connection)
  | some _, some copy => .ok ((), connection.deliver target copy)

def moveTo (uid : ImapUid) (target : String) : Except String (Unit × Connection Mail) :=
  match connection.remote target, connection.copyAt uid with
  | none, _ => .error noSuchMailbox
  | some _, none => .ok ((), connection)
  | some _, some copy => .ok ((), (connection.deliver target copy).revise uid fun _ => none)

end Connection

def select (mailbox_name : String) : Imap Mail (Option ImapUidValidity) := command "select" (·.select mailbox_name)

def uid_fetch_first (uid : ImapUid) : Imap Mail (List ImapUid) := command "uid_fetch_first" (·.fetch uid)

def uid_copy (uid : ImapUid) (target : String) : Imap Mail Unit := command "uid_copy" (·.copyTo uid target)

def uid_move (uid : ImapUid) (target : String) : Imap Mail Unit := command "uid_move" (·.moveTo uid target)

def uid_silent_store (uid : ImapUid) (store_type : StoreType) (names : List String) : Imap Mail Unit :=
  command "uid_store" fun connection => .ok ((), connection.revise uid fun copy => some (copy.stored store_type names))

/-- Of the copies that are marked as deleted, UID EXPUNGE takes out the one it names. -/
def uid_expunge (uid : ImapUid) : Imap Mail Unit :=
  command "uid_expunge" fun connection => .ok ((), connection.revise uid RemoteCopy.expunged)

end Session

section Relations

variable {Mail : Type}

/-- What a run leaves as it was: which mailboxes there are, their epochs, what their UIDs
    stand for, and the copies outside the given places. -/
structure Without (gone : List Address) (before after : Remote Mail) : Prop where
  mailboxes : ∀ name, (after name).map RemoteMailbox.uid_validity = (before name).map RemoteMailbox.uid_validity
  issued : ∀ address, before.Issued address → after.Issued address
  unchanged : ∀ address mail, before.Issued address → after.mailAt address = some mail → before.mailAt address = some mail
  kept : ∀ address mail, address ∉ gone → before.mailAt address = some mail → after.mailAt address = some mail

/-- Every mail that was held still is. -/
def Carries (before after : Remote Mail) : Prop := ∀ mail, before.Holds mail → after.Holds mail

/-- The only copies that are new are of one mail. -/
def Gains (copied : Option Mail) (before after : Remote Mail) : Prop :=
  ∀ address mail, after.mailAt address = some mail → before.mailAt address = some mail ∨ copied = some mail

instance : IsPreorder (Remote Mail) Carries where
  refl _ _ hheld := hheld
  trans _ _ _ hfirst hsecond mail hheld := hsecond mail (hfirst mail hheld)

instance (copied : Option Mail) : IsPreorder (Remote Mail) (Gains copied) where
  refl _ _ _ hheld := Or.inl hheld
  trans _ _ _ hfirst hsecond address mail hheld := by
    obtain hsecond | hcopied := hsecond address mail hheld
    · exact hfirst address mail hsecond
    · exact Or.inr hcopied

instance (gone : List Address) : IsPreorder (Remote Mail) (Without gone) where
  refl _ := ⟨fun _ => rfl, fun _ hissued => hissued, fun _ _ _ hheld => hheld, fun _ _ _ hheld => hheld⟩
  trans _ _ _ hfirst hsecond := {
    mailboxes := fun name => (hsecond.mailboxes name).trans (hfirst.mailboxes name)
    issued := fun address hissued => hsecond.issued address (hfirst.issued address hissued)
    unchanged := fun address mail hissued hheld =>
      hfirst.unchanged address mail hissued (hsecond.unchanged address mail (hfirst.issued address hissued) hheld)
    kept := fun address mail hgone hheld => hsecond.kept address mail hgone (hfirst.kept address mail hgone hheld) }

theorem epoch_eq_join (remote : Remote Mail) (name : String) :
    remote.epoch name = ((remote name).map RemoteMailbox.uid_validity).join := by
  unfold Remote.epoch
  cases remote name <;> rfl

theorem answers_congr {first second : Remote Mail} {name : String} {location : ImapMessageLocation}
    (hmailboxes : (first name).map RemoteMailbox.uid_validity = (second name).map RemoteMailbox.uid_validity) :
    first.Answers name location ↔ second.Answers name location := by
  unfold Remote.Answers
  rw [epoch_eq_join, hmailboxes, epoch_eq_join]

namespace Without

variable {gone : List Address} {before after : Remote Mail}

theorem mono {more : List Address} (hwithout : Without gone before after) (hsubset : gone ⊆ more) :
    Without more before after where
  mailboxes := hwithout.mailboxes
  issued := hwithout.issued
  unchanged := hwithout.unchanged
  kept address mail hmore := hwithout.kept address mail fun hgone => hmore (hsubset hgone)

theorem isSome (hwithout : Without gone before after) (name : String) : (after name).isSome = (before name).isSome := by
  have hsome := congrArg Option.isSome (hwithout.mailboxes name)
  simpa only [Option.isSome_map] using hsome

theorem carries (hwithout : Without [] before after) : Carries before after := by
  rintro mail ⟨address, hheld⟩
  exact ⟨address, hwithout.kept address mail List.not_mem_nil hheld⟩

end Without

section Changes

variable {remote : Remote Mail} {name : String} {uid : ImapUid} {copy : RemoteCopy Mail} {mailbox : RemoteMailbox Mail}

theorem mailAt_alter (change : RemoteMailbox Mail → RemoteMailbox Mail) (address : Address) :
    (remote.alter name change).mailAt address =
      if address.1 = name then ((remote name).bind fun mailbox => (change mailbox).copy address.2).map RemoteCopy.mail
      else remote.mailAt address := by
  unfold Remote.mailAt Remote.copyAt Remote.alter
  split_ifs with hname
  · rw [hname, Function.update_self, Option.bind_map]
    rfl
  · rw [Function.update_of_ne hname]

theorem mailboxes_alter {change : RemoteMailbox Mail → RemoteMailbox Mail}
    (hchange : ∀ mailbox, (change mailbox).uid_validity = mailbox.uid_validity) (other : String) :
    (remote.alter name change other).map RemoteMailbox.uid_validity = (remote other).map RemoteMailbox.uid_validity := by
  unfold Remote.alter
  by_cases hother : other = name
  · rw [hother, Function.update_self, Option.map_map]
    congr 1
    exact funext hchange
  · rw [Function.update_of_ne hother]

theorem issued_alter {change : RemoteMailbox Mail → RemoteMailbox Mail}
    (hchange : ∀ mailbox, mailbox.uid_next ≤ (change mailbox).uid_next) (address : Address)
    (hissued : remote.Issued address) : (remote.alter name change).Issued address := by
  obtain ⟨mailbox, hmailbox, hnext⟩ := hissued
  unfold Remote.Issued Remote.alter
  by_cases haddress : address.1 = name
  · rw [← haddress, Function.update_self, hmailbox]
    exact ⟨change mailbox, rfl, Nat.lt_of_lt_of_le hnext (hchange mailbox)⟩
  · rw [Function.update_of_ne haddress]
    exact ⟨mailbox, hmailbox, hnext⟩

theorem mailAt_revise (change : RemoteCopy Mail → Option (RemoteCopy Mail)) (address : Address) :
    (remote.alter name (·.revise uid change)).mailAt address =
      if address = (name, uid) then ((remote.copyAt (name, uid)).bind change).map RemoteCopy.mail
      else remote.mailAt address := by
  obtain ⟨other, other_uid⟩ := address
  rw [mailAt_alter]
  unfold Remote.mailAt Remote.copyAt RemoteMailbox.revise
  by_cases hname : other = name
  · subst hname
    by_cases huid : other_uid = uid
    · subst huid
      cases remote other <;> simp
    · cases remote other <;> simp [huid]
  · simp [hname]

theorem mailAt_append (hmailbox : remote name = some mailbox) (address : Address) :
    (remote.alter name (·.append copy)).mailAt address =
      if address = (name, mailbox.uid_next) then some copy.mail else remote.mailAt address := by
  obtain ⟨other, other_uid⟩ := address
  rw [mailAt_alter]
  unfold Remote.mailAt Remote.copyAt RemoteMailbox.append
  by_cases hname : other = name
  · subst hname
    by_cases huid : other_uid = mailbox.uid_next
    · simp [hmailbox, huid]
    · simp [hmailbox, huid]
  · simp [hname]

/-- A UID that has not been given out holds nothing. -/
theorem mailAt_unused (hmailbox : remote name = some mailbox) : remote.mailAt (name, mailbox.uid_next) = none := by
  unfold Remote.mailAt Remote.copyAt
  rw [hmailbox, Option.bind_some, mailbox.copy_unused _ (Nat.le_refl _), Option.map_none]

theorem not_issued_next (hmailbox : remote name = some mailbox) : ¬ remote.Issued (name, mailbox.uid_next) := by
  rintro ⟨other, hother, hnext⟩
  rw [hmailbox] at hother
  cases hother
  exact Nat.lt_irrefl _ hnext

/-- A revision leaves a copy's mail alone. -/
def KeepsMail (change : RemoteCopy Mail → Option (RemoteCopy Mail)) : Prop :=
  ∀ copy next, change copy = some next → next.mail = copy.mail

theorem keepsMail_stored (store_type : StoreType) (names : List String) :
    KeepsMail fun copy : RemoteCopy Mail => some (copy.stored store_type names) := by
  rintro copy _ ⟨⟩
  rfl

theorem keepsMail_expunged : KeepsMail (@RemoteCopy.expunged Mail) := by
  intro copy next hnext
  unfold RemoteCopy.expunged at hnext
  split_ifs at hnext
  cases hnext
  rfl

/-- A revision that leaves a copy's mail alone brings nothing new. -/
theorem gains_revise {change : RemoteCopy Mail → Option (RemoteCopy Mail)} (hchange : KeepsMail change) :
    Gains none remote (remote.alter name (·.revise uid change)) := by
  intro address mail hheld
  rw [mailAt_revise] at hheld
  split_ifs at hheld with haddress
  · obtain ⟨next, hnext, rfl⟩ := Option.map_eq_some_iff.mp hheld
    obtain ⟨copy, hcopy, hchanged⟩ := Option.bind_eq_some_iff.mp hnext
    left
    unfold Remote.mailAt
    rw [haddress, hcopy, Option.map_some, hchange copy next hchanged]
  · exact Or.inl hheld

theorem without_revise {change : RemoteCopy Mail → Option (RemoteCopy Mail)} (hchange : KeepsMail change) :
    Without [(name, uid)] remote (remote.alter name (·.revise uid change)) where
  mailboxes := mailboxes_alter fun _ => rfl
  issued := issued_alter fun _ => Nat.le_refl _
  unchanged address mail _ hheld := by
    obtain hheld | hnone := gains_revise hchange address mail hheld
    · exact hheld
    · cases hnone
  kept address mail hgone hheld := by
    rw [mailAt_revise, if_neg (List.mem_singleton.not.mp hgone)]
    exact hheld

theorem without_stored {store_type : StoreType} {names : List String} :
    Without [] remote (remote.alter name (·.revise uid fun copy => some (copy.stored store_type names))) where
  mailboxes := mailboxes_alter fun _ => rfl
  issued := issued_alter fun _ => Nat.le_refl _
  unchanged := (without_revise (keepsMail_stored store_type names)).unchanged
  kept address mail _ hheld := by
    rw [mailAt_revise]
    split_ifs with haddress
    · subst haddress
      unfold Remote.mailAt at hheld
      cases hcopy : remote.copyAt (name, uid) with
      | none =>
        rw [hcopy] at hheld
        exact hheld
      | some copy =>
        rw [hcopy] at hheld
        exact hheld
    · exact hheld

theorem gains_append (hmailbox : remote name = some mailbox) :
    Gains (some copy.mail) remote (remote.alter name (·.append copy)) := by
  intro address mail hheld
  rw [mailAt_append hmailbox] at hheld
  split_ifs at hheld with haddress
  · exact Or.inr hheld
  · exact Or.inl hheld

theorem without_append (hmailbox : remote name = some mailbox) : Without [] remote (remote.alter name (·.append copy)) where
  mailboxes := mailboxes_alter fun _ => rfl
  issued := issued_alter fun mailbox => Nat.le_succ mailbox.uid_next
  unchanged address mail hissued hheld := by
    rw [mailAt_append hmailbox] at hheld
    split_ifs at hheld with haddress
    · rw [haddress] at hissued
      exact absurd hissued (not_issued_next hmailbox)
    · exact hheld
  kept address mail _ hheld := by
    rw [mailAt_append hmailbox]
    split_ifs with haddress
    · rw [haddress, mailAt_unused hmailbox] at hheld
      exact absurd hheld (Option.some_ne_none mail).symm
    · exact hheld

end Changes

end Relations

section Commands

variable {Mail ρ : Type} {relation : Remote Mail → Remote Mail → Prop} [IsPreorder (Remote Mail) relation]

/-- A relation on the server, as one on sessions. -/
abbrev OnRemote (relation : Remote Mail → Remote Mail → Prop) : Session Mail → Session Mail → Prop :=
  Order.Preimage Session.remote relation

theorem strike_connection (fate : Fate) (before : Connection Mail) (served : Except String (ρ × Connection Mail)) :
    (fate.strike before served).2 = before ∨ ∃ reply, served = .ok (reply, (fate.strike before served).2) := by
  obtain _ | ⟨reply, after⟩ := served
  · left
    cases fate with
    | answered => rfl
    | refused => rfl
    | broken _ executed => cases executed <;> rfl
    | elapsed executed => cases executed <;> rfl
  · cases fate with
    | answered => exact Or.inr ⟨reply, rfl⟩
    | refused => exact Or.inl rfl
    | broken _ executed =>
      cases executed with
      | false => exact Or.inl rfl
      | true => exact Or.inr ⟨reply, rfl⟩
    | elapsed executed =>
      cases executed with
      | false => exact Or.inl rfl
      | true => exact Or.inr ⟨reply, rfl⟩

theorem replied_of_strike {fate : Fate} {before after : Connection Mail} {served : Except String (ρ × Connection Mail)}
    {reply : ρ} (hstrike : fate.strike before served = (.replied reply, after)) : served = .ok (reply, after) := by
  obtain _ | ⟨other, next⟩ := served
  · cases fate with
    | answered => cases hstrike
    | refused => cases hstrike
    | broken _ executed => cases executed <;> cases hstrike
    | elapsed executed => cases executed <;> cases hstrike
  · cases fate with
    | answered =>
      cases hstrike
      rfl
    | refused => cases hstrike
    | broken _ executed => cases executed <;> cases hstrike
    | elapsed executed => cases executed <;> cases hstrike

section Command

variable {operation : String} {serve : Connection Mail → Except String (ρ × Connection Mail)} {session after : Session Mail}

theorem final_command : final ((command operation serve).run session) =
    ⟨((session.fates.headD .answered).strike session.connection (serve session.connection)).2, session.fates.tail⟩ := by
  show final (command operation serve session) = _
  unfold command
  simp only
  split <;> rfl

/-- Whatever becomes of a command, the server did nothing or carried it out. -/
theorem final_connection (operation : String) (serve : Connection Mail → Except String (ρ × Connection Mail))
    (session : Session Mail) : (final ((command operation serve).run session)).connection = session.connection ∨
      ∃ reply, serve session.connection = .ok (reply, (final ((command operation serve).run session)).connection) := by
  rw [final_command]
  exact strike_connection _ _ _

theorem command_along
    (hserve : ∀ connection reply next, serve connection = .ok (reply, next) → relation connection.remote next.remote) :
    Along (OnRemote relation) (command operation serve) := by
  intro before
  unfold OnRemote Order.Preimage Session.remote
  obtain hsame | ⟨reply, hserved⟩ := final_connection operation serve before
  · rw [hsame]
    exact refl_of relation _
  · exact hserve _ _ _ hserved

/-- An answered command was carried out. -/
theorem served_of_command {reply : ρ} (hrun : (command operation serve).run session = .ok reply after) :
    serve session.connection = .ok (reply, after.connection) := by
  change command operation serve session = _ at hrun
  unfold command at hrun
  simp only at hrun
  have hreplied := @replied_of_strike _ _ (session.fates.headD .answered) session.connection after.connection
    (serve session.connection) reply
  apply hreplied
  cases hstrike : (session.fates.headD .answered).strike session.connection (serve session.connection) with
  | mk outcome connection =>
    rw [hstrike] at hrun
    cases outcome with
    | replied answer =>
      cases hrun
      rfl
    | refused error => cases hrun
    | broken error => cases hrun
    | elapsed => cases hrun

/-- A command fails as a client error or by its deadline. -/
theorem error_of_command {error : ImapAdapterError} (hrun : (command operation serve).run session = .error error after) :
    (∃ message, error = .Client message) ∨ error = .Timeout operation := by
  change command operation serve session = _ at hrun
  unfold command at hrun
  simp only at hrun
  generalize (session.fates.headD .answered).strike session.connection (serve session.connection) = struck at hrun
  obtain ⟨outcome, connection⟩ := struck
  cases outcome with
  | replied answer => cases hrun
  | refused message =>
    cases hrun
    exact Or.inl ⟨message, rfl⟩
  | broken message =>
    cases hrun
    exact Or.inl ⟨message, rfl⟩
  | elapsed =>
    cases hrun
    exact Or.inr rfl

/-- With nothing in its way a command does what the server makes of it. -/
theorem command_undisturbed {connection next : Connection Mail} {reply : ρ} (hserve : serve connection = .ok (reply, next)) :
    (command operation serve).run ⟨connection, []⟩ = .ok reply ⟨next, []⟩ := by
  show command operation serve ⟨connection, []⟩ = _
  unfold command
  simp only [List.headD_nil, hserve]
  rfl

end Command

end Commands

end posthaste.imap.mutation
