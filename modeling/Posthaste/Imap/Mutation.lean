import Posthaste.Imap.Keywords
import Posthaste.Imap.Remote
import Posthaste.Service.Push

open posthaste.model posthaste.service effects

namespace posthaste.imap.mutation

section Mutation

variable {Mail : Type}

def select_validated_mailbox (mailbox_name : String) (location : ImapMessageLocation) : Imap Mail Unit := do
  match ← select mailbox_name with
  | none => throw (.MissingSelectData "UIDVALIDITY")
  | some uid_validity =>
    if uid_validity ≠ location.uid_validity then
      throw (.UidValidityMismatch mailbox_name location.uid_validity uid_validity)

/-- The UID of a location, as a nonzero one. -/
def uid_sequence_set (location : ImapMessageLocation) : Imap Mail ImapUid :=
  if location.uid = 0 then throw (.InvalidUidSequence "UID 0") else pure location.uid

def verify_message_data_contains_uid (location : ImapMessageLocation) (items : List ImapUid) (missing_label : String) :
    Imap Mail Unit :=
  if location.uid ∈ items then pure () else throw (.MissingFetchData missing_label)

def verify_uid_fetch_response (location : ImapMessageLocation) : Imap Mail Unit := do
  let probe_uid ← uid_sequence_set location
  let items ← uid_fetch_first probe_uid
  verify_message_data_contains_uid location items "matching UID FETCH response"

def copy_imap_message_to_mailbox_by_location (source_mailbox_name : String) (location : ImapMessageLocation)
    (target_mailbox_name : String) : Imap Mail Unit := do
  select_validated_mailbox source_mailbox_name location
  verify_uid_fetch_response location
  let uid ← uid_sequence_set location
  uid_copy uid target_mailbox_name

def move_imap_message_to_mailbox_by_location (source_mailbox_name : String) (location : ImapMessageLocation)
    (target_mailbox_name : String) : Imap Mail Unit := do
  select_validated_mailbox source_mailbox_name location
  verify_uid_fetch_response location
  let uid ← uid_sequence_set location
  uid_move uid target_mailbox_name

def mark_imap_message_deleted_by_location (mailbox_name : String) (location : ImapMessageLocation) : Imap Mail Unit := do
  select_validated_mailbox mailbox_name location
  verify_uid_fetch_response location
  let uid ← uid_sequence_set location
  uid_silent_store uid .Add ["\\Deleted"]

def expunge_imap_message_by_location (mailbox_name : String) (location : ImapMessageLocation) : Imap Mail Unit := do
  select_validated_mailbox mailbox_name location
  verify_uid_fetch_response location
  let uid ← uid_sequence_set location
  uid_silent_store uid .Add ["\\Deleted"]
  uid_expunge uid

section Keywords

variable {Flag : Type} (types : FlagSyntax Flag) (reason : String → String)

/-- The names of the flags that keywords stand for, or the first keyword that is no flag. -/
def flagNames (keywords : List String) : Except ImapAdapterError (List String) :=
  keywords.mapM fun keyword =>
    match imap_flag_for_keyword types keyword with
    | some flag => .ok (types.to_string flag)
    | none => .error (.InvalidKeywordFlag keyword (reason keyword))

def Imap.of {α : Type} : Except ImapAdapterError α → Imap Mail α
  | .ok value => pure value
  | .error error => throw error

/-- A store of no flags is left out. -/
def storeFlags (uid : ImapUid) (store_type : StoreType) (names : List String) : Imap Mail Unit :=
  if names.isEmpty then pure () else uid_silent_store uid store_type names

def apply_imap_keyword_delta_by_location (mailbox_name : String) (location : ImapMessageLocation)
    (command : SetKeywordsCommand) : Imap Mail MutationOutcome := do
  select_validated_mailbox mailbox_name location
  let uid ← uid_sequence_set location
  let add_flags ← Imap.of (flagNames types reason command.add)
  let remove_flags ← Imap.of (flagNames types reason command.remove)
  storeFlags uid .Add add_flags
  storeFlags uid .Remove remove_flags
  return ⟨none, none⟩

end Keywords

/-- The capabilities a change to a message asks about. -/
structure ImapMoveCapabilities where
  supports_move : Bool
  supports_uidplus : Bool

inductive ImapMoveStrategy where
  | UidMoveWithCopyUid
  | UidMoveThenResync
  | CopyDeleteThenResync
  deriving DecidableEq

def plan_imap_move (capabilities : ImapMoveCapabilities) : ImapMoveStrategy :=
  if capabilities.supports_move && capabilities.supports_uidplus then .UidMoveWithCopyUid
  else if capabilities.supports_move then .UidMoveThenResync
  else .CopyDeleteThenResync

structure ImapMailboxReplacementDelta where
  add : List MailboxId
  remove : List MailboxId

def imap_mailbox_replacement_delta (current_mailbox_ids target_mailbox_ids : List MailboxId) :
    ImapMailboxReplacementDelta :=
  let current := BTreeSet.from_iter current_mailbox_ids
  let target := BTreeSet.from_iter target_mailbox_ids
  { add := (target.difference current).toList
    remove := (current.difference target).toList }

/-- The one mailbox left and the one entered, when the server can move between them. -/
def simple_imap_move_mailboxes (capabilities : ImapMoveCapabilities) (delta : ImapMailboxReplacementDelta) :
    Option (MailboxId × MailboxId) :=
  if plan_imap_move capabilities = .CopyDeleteThenResync then none
  else
    match delta.remove, delta.add with
    | [source], [target] => some (source, target)
    | _, _ => none

/-- What the gateway reads from the store: the locations of a message, and the name under
    which a mailbox was last synced. -/
structure LocationReader where
  list_imap_message_locations : MessageId → Except StoreError (List ImapMessageLocation)
  get_imap_mailbox_name : MailboxId → Except StoreError (Option String)

structure LiveImapSmtpGateway where
  capabilities : ImapMoveCapabilities
  mailboxes : List DiscoveredImapMailbox
  store : Option LocationReader

def store_error_to_gateway (error : StoreError) : GatewayError :=
  match error with
  | .Corruption _ => .Corruption s!"IMAP local state lookup hit a corrupt store: {error}"
  | _ => .Rejected s!"IMAP local state lookup failed: {error}"

def unsupported (operation : String) : GatewayError :=
  .Rejected s!"IMAP/SMTP {operation} is not implemented yet; discovery is available"

namespace LiveImapSmtpGateway

variable (gateway : LiveImapSmtpGateway)

def reader (operation : String) : Except GatewayError LocationReader :=
  match gateway.store with
  | some store => .ok store
  | none => .error (unsupported operation)

def locations (operation : String) (message_id : MessageId) : Except GatewayError (List ImapMessageLocation) := do
  let store ← gateway.reader operation
  (store.list_imap_message_locations message_id).mapError store_error_to_gateway

def mailbox_name_for_id (mailbox_id : MailboxId) : Except GatewayError String := do
  let store ← gateway.reader "mailbox name lookup"
  let stored ← (store.get_imap_mailbox_name mailbox_id).mapError store_error_to_gateway
  match stored <|> (gateway.mailboxes.find? (·.id = mailbox_id)).map DiscoveredImapMailbox.name with
  | some name => .ok name
  | none => .error (.Rejected s!"missing IMAP mailbox name for {mailbox_id}")

/-- The location of a mailbox that is left, under the name of the mailbox. -/
def placed (locations : List ImapMessageLocation) (mailbox_id : MailboxId) :
    Except GatewayError (String × ImapMessageLocation) :=
  match locations.find? (·.mailbox_id = mailbox_id) with
  | none => .error (imap_error_to_gateway (.MissingMessageLocation mailbox_id))
  | some location => (gateway.mailbox_name_for_id mailbox_id).map fun name => (name, location)

/-- A location under the name of its mailbox. -/
def named (location : ImapMessageLocation) : Except GatewayError (String × ImapMessageLocation) :=
  (gateway.mailbox_name_for_id location.mailbox_id).map fun name => (name, location)

def location_and_mailbox_name (message_id : MessageId) : Except GatewayError (ImapMessageLocation × String) := do
  let locations ← gateway.locations "message location lookup" message_id
  match locations.head? with
  | none => .error (.Rejected s!"missing IMAP location for message {message_id}")
  | some location => (gateway.mailbox_name_for_id location.mailbox_id).map fun name => (location, name)

end LiveImapSmtpGateway

/-- A step of the gateway that talks to the server. -/
abbrev Push (Mail α : Type) := EStateM GatewayError (Session Mail) α

def Push.of {α : Type} : Except GatewayError α → Push Mail α
  | .ok value => pure value
  | .error error => throw error

/-- A UID that is already gone counts as removed. -/
def remove_imap_message_from_mailbox (gateway : LiveImapSmtpGateway) (mailbox_name : String)
    (location : ImapMessageLocation) : Push Mail Unit :=
  fun session =>
    let result := if gateway.capabilities.supports_uidplus then
        (expunge_imap_message_by_location mailbox_name location).run session
      else (mark_imap_message_deleted_by_location mailbox_name location).run session
    match result with
    | .ok _ after => .ok () after
    | .error (.MissingFetchData _) after => .ok () after
    | .error error after => .error (imap_error_to_gateway error) after

def addToMailboxes (gateway : LiveImapSmtpGateway) (source_mailbox_name : String)
    (source_location : ImapMessageLocation) (mailbox_ids : List MailboxId) : Push Mail Unit :=
  mailbox_ids.forM fun mailbox_id => do
    let target_mailbox_name ← Push.of (gateway.mailbox_name_for_id mailbox_id)
    (copy_imap_message_to_mailbox_by_location source_mailbox_name source_location target_mailbox_name).adaptExcept
      imap_error_to_gateway

/-- Remove a message from places that are found one after the other. -/
def removeFrom {ι : Type} (gateway : LiveImapSmtpGateway) (find : ι → Except GatewayError (String × ImapMessageLocation))
    (places : List ι) : Push Mail Unit :=
  places.forM fun place => do
    let found ← Push.of (find place)
    remove_imap_message_from_mailbox gateway found.1 found.2

def replace_message_mailboxes (gateway : LiveImapSmtpGateway) (message_id : MessageId) (mailbox_ids : List MailboxId) :
    Push Mail MutationOutcome := do
  let locations ← Push.of (gateway.locations "mailbox replacement state lookup" message_id)
  let current_mailbox_ids := locations.map ImapMessageLocation.mailbox_id
  let delta := imap_mailbox_replacement_delta current_mailbox_ids mailbox_ids
  match simple_imap_move_mailboxes gateway.capabilities delta with
  | some (source_mailbox_id, target_mailbox_id) =>
    let source ← Push.of (gateway.placed locations source_mailbox_id)
    let target_mailbox_name ← Push.of (gateway.mailbox_name_for_id target_mailbox_id)
    (move_imap_message_to_mailbox_by_location source.1 source.2 target_mailbox_name).adaptExcept imap_error_to_gateway
    return ⟨none, none⟩
  | none =>
    let source_location ← Push.of (match locations.head? with
      | some location => .ok location
      | none => .error (.Rejected s!"missing IMAP location for message {message_id}"))
    let source_mailbox_name ← Push.of (gateway.mailbox_name_for_id source_location.mailbox_id)
    addToMailboxes gateway source_mailbox_name source_location delta.add
    removeFrom gateway (gateway.placed locations) delta.remove
    return ⟨none, none⟩

def destroy_message_by_imap (gateway : LiveImapSmtpGateway) (message_id : MessageId) : Push Mail MutationOutcome := do
  let locations ← Push.of (gateway.locations "message deletion state lookup" message_id)
  if locations.isEmpty then throw (.Rejected s!"missing IMAP location for message {message_id}")
  removeFrom gateway gateway.named locations
  return ⟨none, none⟩

def set_keywords {Flag : Type} (types : FlagSyntax Flag) (reason : String → String) (gateway : LiveImapSmtpGateway)
    (message_id : MessageId) (command : SetKeywordsCommand) : Push Mail MutationOutcome := do
  let (location, mailbox_name) ← Push.of (gateway.location_and_mailbox_name message_id)
  (apply_imap_keyword_delta_by_location types reason mailbox_name location command).adaptExcept imap_error_to_gateway

/-- One try at a push: the mailbox the session is left in, and what becomes of its commands. -/
structure Attempt where
  selected : Option String
  fates : List Fate

def Attempt.on (attempt : Attempt) (remote : Remote Mail) : Session Mail := ⟨⟨remote, attempt.selected⟩, attempt.fates⟩

/-- A command is delivered at least once: the server after the tries at a push, one after the other. -/
def delivered {α : Type} (push : Push Mail α) (remote : Remote Mail) (attempts : List Attempt) : Remote Mail :=
  attempts.foldl (fun remote attempt => (final (push.run (attempt.on remote))).remote) remote

end Mutation

end posthaste.imap.mutation
