import Posthaste.DomainModel.Imap
import Posthaste.Library.BTreeSet
import Posthaste.Library.Str

open posthaste.model

namespace posthaste.imap

abbrev GmailLabel := String

inductive ImapMailboxMembershipSource where
  | SelectedMailbox
  | ProviderLabels
  deriving DecidableEq

/-- What one FETCH response says of a message. `parsed` holds the columns that the
    header block fills; id, memberships and keywords come from the rest. -/
structure ImapFetchedHeader where
  uid : ImapUid
  modseq : Option ImapModSeq
  keywords : BTreeSet String
  gmail_message_id : Option Nat
  gmail_labels : Option (List GmailLabel)
  parsed : MessageRecord

/-- The records made of one fetched header. -/
structure ImapMappedHeader where
  message : MessageRecord
  location : ImapMessageLocation
  gmail_labels : Option (List GmailLabel)
  mailbox_membership_source : ImapMailboxMembershipSource
  provider_absent_mailbox_ids : List MailboxId

structure DiscoveredImapMailbox where
  id : MailboxId
  name : String
  role : Option String
  selectable : Bool
  attributes : List String

structure DiscoveredImapAccount where
  capabilities : ImapCapabilities
  mailboxes : List DiscoveredImapMailbox

def imap_message_id (mailbox_id : MailboxId) (uid_validity : ImapUidValidity) (uid : ImapUid) : MessageId :=
  "imap:" ++ toString uid_validity ++ ":" ++ toString uid ++ ":" ++ str.hex_encode mailbox_id.toUTF8.data.toList

def gmail_message_id (gmail_id : Nat) : MessageId := "imap:gmail:msgid:" ++ toString gmail_id

def imap_header_message_record_with_gmail_metadata (selected : ImapSelectedMailbox) (fetched : ImapFetchedHeader) :
    ImapMappedHeader :=
  let message_id := (fetched.gmail_message_id.map gmail_message_id).getD
    (imap_message_id selected.mailbox_id selected.uid_validity fetched.uid)
  { message := { fetched.parsed with
      id := message_id
      mailbox_ids := [selected.mailbox_id]
      keywords := fetched.keywords.toList }
    location := {
      message_id
      mailbox_id := selected.mailbox_id
      uid_validity := selected.uid_validity
      uid := fetched.uid
      modseq := fetched.modseq }
    gmail_labels := fetched.gmail_labels
    mailbox_membership_source := .SelectedMailbox
    provider_absent_mailbox_ids := [] }

section Labels

inductive GmailSystemLabel where
  | All
  | Drafts
  | Important
  | Inbox
  | Sent
  | Spam
  | Starred
  | Trash
  deriving DecidableEq

inductive GmailLabelKey where
  | System (label : GmailSystemLabel)
  | Custom (name : String)
  deriving DecidableEq

def to_ascii_uppercase (text : String) : String := text.map Char.toUpper

def eq_ignore_ascii_case (first second : String) : Bool := to_ascii_uppercase first = to_ascii_uppercase second

namespace GmailSystemLabel

def all : List GmailSystemLabel := [All, Drafts, Important, Inbox, Sent, Spam, Starred, Trash]

def from_label (label : String) : Option GmailSystemLabel :=
  if eq_ignore_ascii_case label "INBOX" then some Inbox
  else match to_ascii_uppercase label with
    | "\\ALL" => some All
    | "\\DRAFTS" => some Drafts
    | "IMPORTANT" => some Important
    | "\\IMPORTANT" => some Important
    | "\\INBOX" => some Inbox
    | "\\SENT" => some Sent
    | "\\SPAM" => some Spam
    | "\\STARRED" => some Starred
    | "\\TRASH" => some Trash
    | _ => none

def from_mailbox_attribute (listed : String) : Option GmailSystemLabel :=
  match to_ascii_uppercase listed with
  | "\\ALL" => some All
  | "\\DRAFTS" => some Drafts
  | "\\FLAGGED" => some Starred
  | "\\IMPORTANT" => some Important
  | "\\INBOX" => some Inbox
  | "\\JUNK" => some Spam
  | "\\SENT" => some Sent
  | "\\SPAM" => some Spam
  | "\\TRASH" => some Trash
  | _ => none

def absence_is_authoritative (label : GmailSystemLabel) : Bool := label ≠ All

end GmailSystemLabel

def gmail_mailbox_name_matches (mailbox_name expected_leaf : String) : Bool :=
  eq_ignore_ascii_case mailbox_name expected_leaf ||
    (str.rsplit_once_tail mailbox_name '/').any fun leaf => eq_ignore_ascii_case leaf expected_leaf

/-- Whether a mailbox's name stands for the system label. -/
def GmailSystemLabel.named (mailbox_name : String) : GmailSystemLabel → Bool
  | Inbox => eq_ignore_ascii_case mailbox_name "INBOX"
  | All => gmail_mailbox_name_matches mailbox_name "All Mail"
  | Drafts => gmail_mailbox_name_matches mailbox_name "Drafts"
  | Important => gmail_mailbox_name_matches mailbox_name "Important"
  | Sent => gmail_mailbox_name_matches mailbox_name "Sent" || gmail_mailbox_name_matches mailbox_name "Sent Mail"
  | Spam => gmail_mailbox_name_matches mailbox_name "Spam"
  | Starred => gmail_mailbox_name_matches mailbox_name "Starred"
  | Trash => gmail_mailbox_name_matches mailbox_name "Trash"

def gmail_system_labels_for_mailbox (mailbox : DiscoveredImapMailbox) : List GmailSystemLabel :=
  GmailSystemLabel.all.filter fun label =>
    label.named mailbox.name || mailbox.attributes.any fun listed =>
      GmailSystemLabel.from_mailbox_attribute listed = some label

def GmailLabelKey.from_label (label : GmailLabel) : GmailLabelKey :=
  match GmailSystemLabel.from_label label with
  | some system => .System system
  | none => .Custom label

/-- The labels that stand for a mailbox. -/
def labelKeys (mailbox : DiscoveredImapMailbox) : List GmailLabelKey :=
  let system_labels := gmail_system_labels_for_mailbox mailbox
  if system_labels.isEmpty then [.Custom mailbox.name] else system_labels.map .System

/-- The last selectable mailbox that a label stands for. -/
def mailboxOfLabel (mailboxes : List DiscoveredImapMailbox) (key : GmailLabelKey) : Option MailboxId :=
  ((mailboxes.filter (·.selectable)).reverse.find? fun mailbox => key ∈ labelKeys mailbox).map DiscoveredImapMailbox.id

/-- The mailboxes that a message is not in when its labels do not say so. -/
def absence_authoritative_mailbox_ids (mailboxes : List DiscoveredImapMailbox) : List MailboxId :=
  let deciding := (mailboxes.filter (·.selectable)).filter fun mailbox =>
    let system_labels := gmail_system_labels_for_mailbox mailbox
    system_labels.isEmpty || system_labels.any GmailSystemLabel.absence_is_authoritative
  (BTreeSet.from_iter (deciding.map DiscoveredImapMailbox.id)).toList

/-- Memberships and the flag of a header as its label list has them. -/
def projectLabels (mailboxes : List DiscoveredImapMailbox) (header : ImapMappedHeader) (labels : List GmailLabel) :
    ImapMappedHeader :=
  let keys := labels.map GmailLabelKey.from_label
  let mailbox_ids := (BTreeSet.from_iter (header.location.mailbox_id :: keys.filterMap (mailboxOfLabel mailboxes))).toList
  let starred := if GmailLabelKey.System .Starred ∈ keys then ["$flagged"] else []
  { header with
    message := { header.message with
      mailbox_ids
      keywords := (BTreeSet.from_iter (header.message.keywords.filter (· ≠ "$flagged") ++ starred)).toList }
    mailbox_membership_source := .ProviderLabels
    provider_absent_mailbox_ids := (absence_authoritative_mailbox_ids mailboxes).filter (· ∉ mailbox_ids) }

end Labels

section Groups

/-- One message id for all locations of a message. -/
def canonical_message_id (message : MessageRecord) : MessageId :=
  if "imap:gmail:msgid:".toList.isPrefixOf message.id.toList then message.id
  else match message.rfc_message_id with
    | some rfc_message_id =>
      if rfc_message_id = "" then message.id
      else "imap:gmail:rfc822msgid:" ++ str.hex_encode rfc_message_id.toUTF8.data.toList
    | none => message.id

def underCanonicalId (header : ImapMappedHeader) : ImapMappedHeader :=
  { header with
    message := { header.message with id := canonical_message_id header.message }
    location := { header.location with message_id := canonical_message_id header.message } }

/-- The header under its canonical id, with its labels projected. -/
def canonicalize (mailboxes : List DiscoveredImapMailbox) (header : ImapMappedHeader) : ImapMappedHeader :=
  match header.gmail_labels with
  | some labels => projectLabels mailboxes (underCanonicalId header) labels
  | none => underCanonicalId header

/-- What every label list of the group leaves out. -/
def commonAbsent : List (List MailboxId) → List MailboxId
  | [] => []
  | [absent] => absent
  | absent :: rest => absent.filter (· ∈ commonAbsent rest)

/-- The headers of one message agree on its memberships, its keywords and what it is absent from. -/
def intoHeaders (group : List ImapMappedHeader) : List ImapMappedHeader :=
  match group with
  | [] => []
  | first :: _ =>
    let observed := group.filter (·.mailbox_membership_source = .ProviderLabels)
    let message := { first.message with
      mailbox_ids := (BTreeSet.from_iter (group.flatMap (·.message.mailbox_ids))).toList
      keywords := (BTreeSet.from_iter (group.flatMap (·.message.keywords))).toList }
    let absent := commonAbsent (observed.map (·.provider_absent_mailbox_ids))
    group.map fun header => {
      message
      location := header.location
      gmail_labels := none
      mailbox_membership_source := if observed.isEmpty then .SelectedMailbox else .ProviderLabels
      provider_absent_mailbox_ids := (BTreeSet.from_iter absent).toList }

/-- The headers grouped by message id, in the order of the ids. -/
def groupHeaders (headers : List ImapMappedHeader) : List ImapMappedHeader :=
  (BTreeSet.from_iter (headers.map (·.message.id))).toList.flatMap fun id =>
    intoHeaders (headers.filter (·.message.id = id))

/-- Gmail shows one message in many mailboxes; elsewhere a header stands for itself. -/
def project_imap_headers (discovery : DiscoveredImapAccount) (headers : List ImapMappedHeader) : List ImapMappedHeader :=
  if discovery.capabilities.supports_gmail_extensions then groupHeaders (headers.map (canonicalize discovery.mailboxes))
  else headers

/-- What a batch carries of its headers: the first record of each message, in the
    order of the ids, every location, and the label-derived absences. -/
structure ProjectedMessages where
  messages : List MessageRecord
  locations : List ImapMessageLocation
  provider_absent_mailbox_ids_by_message : List (MessageId × MailboxId)

def messages_and_locations_from_headers (headers : List ImapMappedHeader) : ProjectedMessages where
  messages := (BTreeSet.from_iter (headers.map (·.message.id))).toList.filterMap fun id =>
    (headers.find? (·.message.id = id)).map ImapMappedHeader.message
  locations := headers.map ImapMappedHeader.location
  provider_absent_mailbox_ids_by_message :=
    (headers.filter (·.mailbox_membership_source = .ProviderLabels)).flatMap fun header =>
      header.provider_absent_mailbox_ids.map fun mailbox_id => (header.message.id, mailbox_id)

def messages_and_locations_for_batch (discovery : DiscoveredImapAccount) (headers : List ImapMappedHeader) :
    ProjectedMessages :=
  messages_and_locations_from_headers (project_imap_headers discovery headers)

end Groups

end posthaste.imap
