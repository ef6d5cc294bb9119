import Posthaste.Library.Serde

open serde

namespace posthaste.model

abbrev MessageId := String
abbrev MailboxId := String
abbrev ThreadId := String
abbrev BlobId := String
abbrev Timestamp := String

/-- Command to add and/or remove keywords on a message. -/
structure SetKeywordsCommand where
  add : List String
  remove : List String
  deriving DecidableEq

/-- Command to atomically replace all mailbox memberships of a message. -/
structure ReplaceMailboxesCommand where
  mailbox_ids : List MailboxId
  deriving DecidableEq

structure Recipient where
  name : Option String
  email : String
  deriving DecidableEq

structure SendMessageAttachment where
  filename : String
  mime_type : String
  content_base64 : String
  deriving DecidableEq

/-- A new email, as a draft save or a send carries it. -/
structure SendMessageRequest where
  from_ : Option Recipient
  to_ : List Recipient
  cc : List Recipient
  bcc : List Recipient
  subject : String
  body : String
  in_reply_to : Option String
  references : Option String
  attachments : List SendMessageAttachment
  draft_id : Option String
  send_at : Option String
  undo_window_seconds : Option UInt32
  deriving DecidableEq

instance : Inhabited SendMessageRequest where
  default := {
    from_ := none, to_ := [], cc := [], bcc := [], subject := "", body := "", in_reply_to := none,
    references := none, attachments := [], draft_id := none, send_at := none, undo_window_seconds := none }

section Codec

instance : Serialize SetKeywordsCommand where
  to_value command := .object [("add", to_value command.add), ("remove", to_value command.remove)]

instance : Deserialize SetKeywordsCommand where
  from_value := deserialize_struct "struct SetKeywordsCommand" do
    let add ← required "add"
    let remove ← required "remove"
    return { add, remove }

instance : RoundTrip SetKeywordsCommand where
  from_to _ := deserialize_struct_object (.bind (.required rfl) (.bind (.required rfl) .pure))

instance : Serialize ReplaceMailboxesCommand where
  to_value command := .object [("mailboxIds", to_value command.mailbox_ids)]

instance : Deserialize ReplaceMailboxesCommand where
  from_value := deserialize_struct "struct ReplaceMailboxesCommand" do
    let mailbox_ids ← required "mailboxIds"
    return { mailbox_ids }

instance : RoundTrip ReplaceMailboxesCommand where
  from_to _ := deserialize_struct_object (.bind (.required rfl) .pure)

instance : Serialize Recipient where
  to_value recipient := .object [("name", to_value recipient.name), ("email", to_value recipient.email)]

instance : Deserialize Recipient where
  from_value := deserialize_struct "struct Recipient" do
    let name ← serde.optional "name"
    let email ← required "email"
    return { name, email }

instance : RoundTrip Recipient where
  from_to _ := deserialize_struct_object (.bind (.optional rfl) (.bind (.required rfl) .pure))

instance : NonNull Recipient where
  to_value_ne_null _ := by simp [to_value]

instance : Serialize SendMessageAttachment where
  to_value attachment := .object [
    ("filename", to_value attachment.filename),
    ("mimeType", to_value attachment.mime_type),
    ("contentBase64", to_value attachment.content_base64)]

instance : Deserialize SendMessageAttachment where
  from_value := deserialize_struct "struct SendMessageAttachment" do
    let filename ← required "filename"
    let mime_type ← required "mimeType"
    let content_base64 ← required "contentBase64"
    return { filename, mime_type, content_base64 }

instance : RoundTrip SendMessageAttachment where
  from_to _ :=
    deserialize_struct_object (.bind (.required rfl) (.bind (.required rfl) (.bind (.required rfl) .pure)))

/-- An entry that is left out of the encoding when the option is absent. -/
private def skippedWhenNone {α : Type} [Serialize α] (name : String) : Option α → List (String × Value)
  | none => []
  | some value => [(name, to_value value)]

instance : Serialize SendMessageRequest where
  to_value request := .object ([
    ("from", to_value request.from_),
    ("to", to_value request.to_),
    ("cc", to_value request.cc),
    ("bcc", to_value request.bcc),
    ("subject", to_value request.subject),
    ("body", to_value request.body),
    ("inReplyTo", to_value request.in_reply_to),
    ("references", to_value request.references),
    ("attachments", to_value request.attachments),
    ("draftId", to_value request.draft_id)] ++
    skippedWhenNone "sendAt" request.send_at ++
    skippedWhenNone "undoWindowSeconds" request.undo_window_seconds)

instance : Deserialize SendMessageRequest where
  from_value := deserialize_struct "struct SendMessageRequest" do
    let from_ ← serde.optional "from"
    let to_ ← required "to"
    let cc ← required "cc"
    let bcc ← required "bcc"
    let subject ← required "subject"
    let body ← required "body"
    let in_reply_to ← serde.optional "inReplyTo"
    let references ← serde.optional "references"
    let attachments ← defaulted "attachments" []
    let draft_id ← defaulted "draftId" none
    let send_at ← defaulted "sendAt" none
    let undo_window_seconds ← defaulted "undoWindowSeconds" none
    return {
      from_, to_, cc, bcc, subject, body, in_reply_to, references, attachments, draft_id, send_at,
      undo_window_seconds }

instance : RoundTrip SendMessageRequest where
  from_to request := by
    obtain ⟨from_, to_, cc, bcc, subject, body, in_reply_to, references, attachments, draft_id, send_at, window⟩ :=
      request
    refine deserialize_struct_object ?_
    refine .bind (.optional rfl) (.bind (.required rfl) (.bind (.required rfl) (.bind (.required rfl) ?_)))
    refine .bind (.required rfl) (.bind (.required rfl) (.bind (.optional rfl) (.bind (.optional rfl) ?_)))
    refine .bind (.defaulted rfl) (.bind (.defaulted rfl) ?_)
    cases send_at with
    | none =>
      cases window with
      | none => exact .bind (.defaulted_absent rfl) (.bind (.defaulted_absent rfl) .pure)
      | some seconds => exact .bind (.defaulted_absent rfl) (.bind (show Reads _ _ (some seconds) from .defaulted rfl) .pure)
    | some time =>
      cases window with
      | none => exact .bind (show Reads _ _ (some time) from .defaulted rfl) (.bind (.defaulted_absent rfl) .pure)
      | some seconds =>
        exact .bind (show Reads _ _ (some time) from .defaulted rfl) (.bind (show Reads _ _ (some seconds) from .defaulted rfl) .pure)

end Codec

end posthaste.model
