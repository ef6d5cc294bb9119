import Posthaste.DomainModel.Records

namespace posthaste.model

/-! Uids, validities and modseqs are only compared, so their machine width does not show. -/

abbrev ImapUid := Nat

abbrev ImapUidValidity := Nat

abbrev ImapModSeq := Nat

/-- Per-mailbox IMAP sync state. `partial_initial_uid` is the checkpoint of an
    initial snapshot still in progress. -/
structure ImapMailboxSyncState where
  mailbox_id : MailboxId
  uid_validity : ImapUidValidity
  highest_uid : Option ImapUid
  highest_modseq : Option ImapModSeq
  partial_initial_uid : Option ImapUid
  deriving DecidableEq

/-- Where a locally projected message is found on the server. -/
structure ImapMessageLocation where
  message_id : MessageId
  mailbox_id : MailboxId
  uid_validity : ImapUidValidity
  uid : ImapUid
  modseq : Option ImapModSeq
  deriving DecidableEq

/-- The deletion address of a location. -/
structure ImapMessageLocationKey where
  message_id : MessageId
  mailbox_id : MailboxId
  uid_validity : ImapUidValidity
  uid : ImapUid
  deriving DecidableEq

def ImapMessageLocation.key (location : ImapMessageLocation) : ImapMessageLocationKey where
  message_id := location.message_id
  mailbox_id := location.mailbox_id
  uid_validity := location.uid_validity
  uid := location.uid

instance : LawfulBEq (MessageId × MailboxId) := Prod.instLawfulBEq

/-- The primary key of a stored location. -/
def ImapMessageLocation.place (location : ImapMessageLocation) : MessageId × MailboxId :=
  (location.message_id, location.mailbox_id)

def ImapMessageLocationKey.place (key : ImapMessageLocationKey) : MessageId × MailboxId := (key.message_id, key.mailbox_id)

@[simp] theorem ImapMessageLocation.place_key (location : ImapMessageLocation) : location.key.place = location.place := rfl

/-- What the server says of a mailbox when it is selected or examined. -/
structure ImapSelectedMailbox where
  mailbox_id : MailboxId
  uid_validity : ImapUidValidity
  uid_next : Option ImapUid
  highest_modseq : Option ImapModSeq

inductive ImapFullSyncReason where
  | InitialSync
  | ResumeInitialSync
  | UidValidityChanged
  | MissingUidWatermark
  | FlagDeltaUnavailable
  | ProviderCanonicalizationRequired
  deriving DecidableEq

inductive ImapMailboxSyncPlan where
  | FullSnapshot (reason : ImapFullSyncReason)
  | FetchNewByUid (after_uid : ImapUid)
  | CondstoreDelta (since_modseq : ImapModSeq) (after_uid : Option ImapUid)
  | QresyncDelta (uid_validity : ImapUidValidity) (since_modseq : ImapModSeq) (after_uid : Option ImapUid)
  deriving DecidableEq

/-- The capabilities the planner asks about. -/
structure ImapCapabilities where
  supports_enable : Bool
  supports_condstore : Bool
  supports_qresync : Bool
  supports_gmail_extensions : Bool

namespace ImapMailboxSyncState

def is_valid_for (state : ImapMailboxSyncState) (uid_validity : ImapUidValidity) : Bool :=
  state.uid_validity = uid_validity

def record_seen_uid (state : ImapMailboxSyncState) (uid : ImapUid) : ImapMailboxSyncState :=
  { state with highest_uid := some (state.highest_uid.elim uid (max · uid)) }

def record_highest_modseq (state : ImapMailboxSyncState) (modseq : ImapModSeq) : ImapMailboxSyncState :=
  { state with highest_modseq := some (state.highest_modseq.elim modseq (max · modseq)) }

end ImapMailboxSyncState

end posthaste.model
