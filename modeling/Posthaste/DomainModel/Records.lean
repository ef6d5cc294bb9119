import Posthaste.DomainModel.Commands

namespace posthaste.model

structure ListUnsubscribe where
  https : Option String
  mailto : Option String
  one_click : Bool
  deriving DecidableEq

/-- A full email record, as a sync delivers it and as the replay derives it. -/
structure MessageRecord where
  id : MessageId
  source_thread_id : ThreadId
  remote_blob_id : Option BlobId
  subject : Option String
  from_name : Option String
  from_email : Option String
  to_ : List Recipient
  cc : List Recipient
  bcc : List Recipient
  reply_to : List Recipient
  preview : Option String
  received_at : Timestamp
  has_attachment : Bool
  size : Int
  mailbox_ids : List MailboxId
  keywords : List String
  body_html : Option String
  body_text : Option String
  raw_mime : Option String
  rfc_message_id : Option String
  in_reply_to : Option String
  references : List String
  draft_id : Option String
  list_unsubscribe : Option ListUnsubscribe
  deriving DecidableEq

instance : Inhabited MessageRecord where
  default := {
    id := "", source_thread_id := "", remote_blob_id := none, subject := none, from_name := none,
    from_email := none, to_ := [], cc := [], bcc := [], reply_to := [], preview := none, received_at := "",
    has_attachment := false, size := 0, mailbox_ids := [], keywords := [], body_html := none,
    body_text := none, raw_mime := none, rfc_message_id := none, in_reply_to := none, references := [],
    draft_id := none, list_unsubscribe := none }

/-- Where the provider stands in its change history, for one kind of object. -/
inductive SyncObject where
  | Mailbox
  | Message
  deriving DecidableEq

structure SyncCursor where
  object_type : SyncObject
  state : String
  deriving DecidableEq

/-- A message as the provider reports it right after a mutation. -/
inductive MessageReadback where
  | Present (record : MessageRecord)
  | Removed
  deriving DecidableEq

inductive GatewayError where
  | Unavailable (account : String)
  | Auth
  | Network (message : String)
  | DispatchUncertain (message : String)
  | StateMismatch
  | CannotCalculateChanges
  | Rejected (message : String)
  | Corruption (message : String)
  | Internal (message : String)
  | MutationRejected (readback : MessageReadback) (reason : String)
  | MailboxNotEmpty (count : Nat)
  deriving DecidableEq

instance : ToString GatewayError where
  toString
    | .Unavailable account => s!"gateway unavailable for account {account}"
    | .Auth => "authentication failed"
    | .Network message => s!"network error: {message}"
    | .DispatchUncertain message => s!"send dispatch uncertain: {message}"
    | .StateMismatch => "state mismatch"
    | .CannotCalculateChanges => "cannot calculate changes"
    | .Rejected message => s!"gateway rejected the request: {message}"
    | .Corruption message => s!"gateway hit a corrupt local store: {message}"
    | .Internal message => s!"internal gateway codec error: {message}"
    | .MutationRejected _ reason => s!"gateway rejected the mutation: {reason}"
    | .MailboxNotEmpty count => s!"mailbox is not empty ({count} messages)"

inductive StoreError where
  | NotFound (message : String)
  | Conflict (message : String)
  | Failure (message : String)
  | Corruption (message : String)
  deriving DecidableEq

/-- The service-layer error, less the secret and configuration faults that no
    modelled operation raises. -/
inductive ServiceError where
  | Gateway (error : GatewayError)
  | Store (error : StoreError)
  deriving DecidableEq

instance : ToString StoreError where
  toString
    | .NotFound message => s!"not found: {message}"
    | .Conflict message => s!"conflict: {message}"
    | .Failure message => s!"storage failure: {message}"
    | .Corruption message => s!"database corrupted: {message}"

instance : ToString ServiceError where
  toString
    | .Gateway error => toString error
    | .Store error => toString error

end posthaste.model
