import Posthaste.Engine.Delta
import Posthaste.Engine.KeywordPatch
import Posthaste.Library.ObjectSet
import Posthaste.Service.Push

open serde json_patch object_set effects posthaste.model posthaste.service

namespace posthaste.engine

inductive SetErrorType where
  | NotFound
  | MailboxHasEmail
  | Other (name : String)
  deriving DecidableEq

/-- Why the server leaves one object of a `/set` as it is. -/
structure SetError where
  error : SetErrorType
  text : String

/-- How a server makes ids, words the errors it owes the client, and spells its states. -/
structure Server where
  minting : Minting String
  not_found : String
  invalid_patch : String
  state : Nat → String

def Server.absent (server : Server) : SetError := ⟨.NotFound, server.not_found⟩

/-- How a request ends: it is not carried out, or it is and no answer can be read, or it is answered. -/
inductive Delivery where
  | failed (error : GatewayError)
  | unanswered (verdict : Verdict SetError) (error : GatewayError)
  | answered (verdict : Verdict SetError)

/-- What the server decided, where the request reached it. -/
def Delivery.verdict : Delivery → Option (Verdict SetError)
  | .failed _ => none
  | .unanswered verdict _ | .answered verdict => some verdict

/-- A `/set` call. With `if_in_state` the server refuses it whole once anything changed. -/
def send_set {ρ : Type} (server : Server) (if_in_state : Option String) (change : Change String ρ SetError)
    (delivery : Delivery) : EStateM GatewayError (Collection String ρ) (Answer String SetError) := fun collection =>
  let mismatch := if_in_state.any fun state => state ≠ server.state collection.version
  match delivery with
  | .failed error => .error error collection
  | .unanswered verdict error =>
    .error error (if mismatch then collection else (collection.set server.minting server.absent change verdict).2)
  | .answered verdict =>
    if mismatch then .error .StateMismatch collection
    else
      let served := collection.set server.minting server.absent change verdict
      .ok served.1 served.2

/-- What the answer says of one id. -/
def outcomeOf {α : Type} (id : String) : Option (Except SetError α) → Except JmapError α
  | some (.ok value) => .ok value
  | some (.error error) => .error (.Set error.text)
  | none => .error (.Internal s!"Id {id} not found.")

section Guarded

variable {server : Server} {ρ : Type} {expected_state : Option String} {change : Change String ρ SetError}
  {delivery : Delivery} {collection served : Collection String ρ}

theorem state_of_matched {version : Nat}
    (hmatch : ¬ (expected_state.any fun state => state ≠ server.state version) = true) :
    ∀ state, expected_state = some state → server.state version = state := by
  rintro state rfl
  have hsame : state = server.state version := by simpa using hmatch
  exact hsame.symm

/-- An answer that is read comes from the state that was expected. -/
theorem send_set_ok {response : Answer String SetError}
    (hok : (send_set server expected_state change delivery).run collection = .ok response served) :
    ∃ verdict, delivery.verdict = some verdict ∧
      (∀ state, expected_state = some state → server.state collection.version = state) ∧
      collection.set server.minting server.absent change verdict = (response, served) := by
  cases delivery with
  | failed error => cases hok
  | unanswered verdict error => cases hok
  | answered verdict =>
    unfold send_set EStateM.run at hok
    simp only at hok
    split_ifs at hok with hmatch
    cases hok
    exact ⟨verdict, rfl, state_of_matched hmatch, rfl⟩

/-- Out of the expected state nothing is done. -/
theorem final_send_set_guarded :
    final ((send_set server expected_state change delivery).run collection) =
      delivery.verdict.elim collection fun verdict =>
        if expected_state.any fun state => state ≠ server.state collection.version then collection
        else (collection.set server.minting server.absent change verdict).2 := by
  cases delivery with
  | failed error => rfl
  | unanswered verdict error => rfl
  | answered verdict =>
    unfold send_set EStateM.run Delivery.verdict
    simp only [Option.elim_some]
    split_ifs <;> rfl

theorem final_send_set :
    final ((send_set server none change delivery).run collection) =
      delivery.verdict.elim collection fun verdict =>
        (collection.set server.minting server.absent change verdict).2 := final_send_set_guarded

/-- A request that the server carries out and does not refuse does its work, any other leaves the rows. -/
theorem rows_send_set {refused : Verdict SetError → Bool} {rows : List (String × ρ)}
    (hrows : ∀ verdict, (collection.set server.minting server.absent change verdict).2.objects.rows =
      if refused verdict then collection.objects.rows else rows) :
    (final ((send_set server none change delivery).run collection)).objects.rows =
      if delivery.verdict.any fun verdict => !refused verdict then rows else collection.objects.rows := by
  rw [final_send_set]
  cases delivery.verdict with
  | none => rfl
  | some verdict =>
    rw [Option.elim_some, hrows, Option.any_some]
    cases refused verdict <;> rfl

end Guarded

section Messages

/-- How the two requests of a mutation end: the `/set`, and the `/get` that reads the message back. -/
structure Ends where
  set : Delivery
  get : Option GatewayError

def Ends.undisturbed : Ends := ⟨.answered .granted, none⟩

/-- The account's messages, each the object the server holds. -/
abbrev Messages := Collection String Value

abbrev Mutating := EStateM GatewayError Messages MutationOutcome

variable (server : Server) (json : JsonText) (to_message_record : Value → MessageRecord)

def fetch_message_record (failure : Option GatewayError) (message_id : MessageId) (mailbox : Messages) :
    Except GatewayError MessageRecord :=
  match failure with
  | some error => .error error
  | none =>
    match mailbox.find message_id with
    | none => .error (.Rejected "message not found after mutation")
    | some email => .ok (to_message_record email)

/-- A rejection carries the message as it is. If it cannot be read back, that is the error. -/
def message_rejected (fetched : Except GatewayError MessageRecord) (reason : String) : GatewayError :=
  match fetched with
  | .ok record => .MutationRejected (.Present record) reason
  | .error error => error

def message_mutation_outcome (state : String) : MutationOutcome where
  message := none
  cursor := some ⟨.Message, encode_email_cursor_state json state⟩

/-- Set, then get. `read` tells the outcome from both. -/
def set_then_get (message_id : MessageId) (expected_state : Option String) (change : Change String Value SetError)
    (read : Answer String SetError → Except GatewayError MessageRecord → Except GatewayError MutationOutcome)
    (ends : Ends) : Mutating := do
  let response ← send_set server expected_state change ends.set
  match read response (fetch_message_record to_message_record ends.get message_id (← get)) with
  | .ok outcome => return outcome
  | .error error => throw error

/-- The server's update of one message by a patch object. -/
def patching (patch : List (String × Value)) (email : Value) : Except SetError Value :=
  match apply email patch with
  | some after => .ok after
  | none => .error ⟨.Other "invalidPatch", server.invalid_patch⟩

def set_keywords_mutation_outcome (message_id : MessageId) (response : Answer String SetError) :
    Except GatewayError MutationOutcome := do
  (outcomeOf message_id response.updated).mapError map_gateway_error
  return message_mutation_outcome json (server.state response.version)

def set_keywords (message_id : MessageId) (expected_state : Option String) (command : SetKeywordsCommand) : Ends → Mutating :=
  set_then_get server to_message_record message_id expected_state
    ⟨none, some (message_id, patching server (keyword_patch command)), none⟩ fun response fetched =>
      match set_keywords_mutation_outcome server json message_id response with
      | .ok outcome => .ok { outcome with message := fetched.toOption.map .Present }
      | .error (.Rejected reason) => .error (message_rejected fetched reason)
      | .error other => .error other

/-- The memberships as one property. -/
def mailboxIdsPatch (mailbox_ids : List MailboxId) : List (String × Value) :=
  [("mailboxIds", .object (insertAll mailbox_ids (.bool true) []))]

def replace_mailboxes (message_id : MessageId) (expected_state : Option String) (mailbox_ids : List MailboxId) :
    Ends → Mutating :=
  set_then_get server to_message_record message_id expected_state
    ⟨none, some (message_id, patching server (mailboxIdsPatch mailbox_ids)), none⟩ fun response fetched =>
      match outcomeOf message_id response.updated with
      | .error error => .error (message_rejected fetched (toString (map_gateway_error error)))
      | .ok _ => .ok { message_mutation_outcome json (server.state response.version) with
          message := fetched.toOption.map .Present }

def destroy_message (message_id : MessageId) (expected_state : Option String) : Ends → Mutating :=
  set_then_get server to_message_record message_id expected_state ⟨none, none, some message_id⟩ fun response fetched =>
    match outcomeOf message_id response.destroyed with
    | .error error => .error (message_rejected fetched (toString (map_gateway_error error)))
    | .ok _ => .ok { message_mutation_outcome json (server.state response.version) with message := some .Removed }

/-- What the outbox asserts of a message. -/
inductive Assertion where
  | SetKeywords (command : SetKeywordsCommand)
  | ReplaceMailboxes (mailbox_ids : List MailboxId)
  | Destroy
  deriving DecidableEq

namespace Assertion

/-- An assertion is pushed without an expected state. -/
def push (message_id : MessageId) : Assertion → Ends → Mutating
  | .SetKeywords command => set_keywords server json to_message_record message_id none command
  | .ReplaceMailboxes mailbox_ids => replace_mailboxes server json to_message_record message_id none mailbox_ids
  | .Destroy => destroy_message server json to_message_record message_id none

/-- What a push returns. -/
def outcome : EStateM.Result GatewayError Messages MutationOutcome → Except GatewayError MutationOutcome
  | .ok outcome _ => .ok outcome
  | .error error _ => .error error

/-- The readback of a mutation, or its error. -/
def reported (result : EStateM.Result GatewayError Messages MutationOutcome) :
    Except GatewayError (Option MessageReadback) :=
  (outcome result).map MutationOutcome.message

end Assertion

section Redelivery

variable {server : Server} {json : JsonText} {to_message_record : Value → MessageRecord} {message_id : MessageId}
  {assertion : Assertion} {mailbox after : Messages} {patch : List (String × Value)} {email : Value}

/-- The request alone decides what the server holds. -/
theorem final_set_then_get {expected_state : Option String} {change : Change String Value SetError}
    {read : Answer String SetError → Except GatewayError MessageRecord → Except GatewayError MutationOutcome} {ends : Ends} :
    final ((set_then_get server to_message_record message_id expected_state change read ends).run mailbox) =
      final ((send_set server expected_state change ends.set).run mailbox) := by
  refine final_bind_of_kept fun response state => ?_
  show final (EStateM.run (match read response _ with | .ok outcome => _ | .error error => _) state) = state
  cases read response (fetch_message_record to_message_record ends.get message_id state) with
  | ok outcome => rfl
  | error error => rfl

/-- What the assertion does to the rows of the server. -/
def Assertion.worked (server : Server) (message_id : MessageId) (assertion : Assertion) (rows : List (String × Value)) :
    List (String × Value) :=
  match assertion with
  | .SetKeywords command =>
    rows.map fun held =>
      if held.1 = message_id then (held.1, Collection.patched (patching server (keyword_patch command)) held.2) else held
  | .ReplaceMailboxes mailbox_ids =>
    rows.map fun held =>
      if held.1 = message_id then (held.1, Collection.patched (patching server (mailboxIdsPatch mailbox_ids)) held.2) else held
  | .Destroy => rows.filter fun held => held.1 ≠ message_id

/-- The server refuses what the assertion asks. -/
def Assertion.refused (assertion : Assertion) (verdict : Verdict SetError) : Bool :=
  match assertion with
  | .SetKeywords _ | .ReplaceMailboxes _ => verdict.update.isSome
  | .Destroy => verdict.destroy.isSome

/-- The try reached the server, which did what it was asked. -/
def Ends.does (assertion : Assertion) (ends : Ends) : Bool := ends.set.verdict.any fun verdict => !assertion.refused verdict

theorem rows_push {ends : Ends} :
    (final ((assertion.push server json to_message_record message_id ends).run mailbox)).objects.rows =
      if ends.does assertion then assertion.worked server message_id mailbox.objects.rows else mailbox.objects.rows := by
  cases assertion with
  | SetKeywords command =>
    unfold Assertion.push set_keywords
    rw [final_set_then_get]
    exact rows_send_set fun verdict => Collection.rows_update
  | ReplaceMailboxes mailbox_ids =>
    unfold Assertion.push replace_mailboxes
    rw [final_set_then_get]
    exact rows_send_set fun verdict => Collection.rows_update
  | Destroy =>
    unfold Assertion.push destroy_message
    rw [final_set_then_get]
    exact rows_send_set fun verdict => Collection.rows_destroy

theorem patching_of_some {after : Value} (happly : apply email patch = some after) :
    patching server patch email = .ok after := by
  rw [patching, happly]

theorem patching_of_none (happly : apply email patch = none) :
    patching server patch email = .error ⟨.Other "invalidPatch", server.invalid_patch⟩ := by
  rw [patching, happly]

theorem patching_twice : Collection.patched (patching server patch) (Collection.patched (patching server patch) email) =
    Collection.patched (patching server patch) email := by
  cases happly : apply email patch with
  | none =>
    rw [Collection.patched_of_error (patching_of_none happly), Collection.patched_of_error (patching_of_none happly)]
  | some after =>
    rw [Collection.patched_of_ok (patching_of_some happly),
      Collection.patched_of_ok (patching_of_some (apply_twice happly))]

theorem worked_twice (rows : List (String × Value)) :
    assertion.worked server message_id (assertion.worked server message_id rows) = assertion.worked server message_id rows := by
  have hmap : ∀ patch : List (String × Value),
      ((rows.map fun held => if held.1 = message_id then (held.1, Collection.patched (patching server patch) held.2) else held).map
        fun held => if held.1 = message_id then (held.1, Collection.patched (patching server patch) held.2) else held) =
      rows.map fun held => if held.1 = message_id then (held.1, Collection.patched (patching server patch) held.2) else held := by
    intro patch
    rw [List.map_map]
    refine List.map_congr_left fun held _ => ?_
    by_cases hid : held.1 = message_id
    · simp only [Function.comp_apply, hid, if_true, patching_twice]
    · simp only [Function.comp_apply, if_neg hid]
  cases assertion with
  | SetKeywords command => exact hmap _
  | ReplaceMailboxes mailbox_ids => exact hmap _
  | Destroy =>
    unfold Assertion.worked
    rw [List.filter_filter]
    simp only [Bool.and_self]

/-- Some tries, one after the other. -/
def tried (server : Server) (json : JsonText) (to_message_record : Value → MessageRecord) (message_id : MessageId)
    (assertion : Assertion) (mailbox : Messages) (tries : List Ends) : Messages :=
  tries.foldl (fun mailbox ends => final ((assertion.push server json to_message_record message_id ends).run mailbox)) mailbox

/-- Tries that were carried out leave what one leaves, the others nothing. -/
theorem rows_tried (tries : List Ends) :
    (tried server json to_message_record message_id assertion mailbox tries).objects.rows =
      if tries.any (·.does assertion) then assertion.worked server message_id mailbox.objects.rows
      else mailbox.objects.rows := by
  induction tries generalizing mailbox with
  | nil => rfl
  | cons ends tries ih =>
    unfold tried at ih ⊢
    rw [List.foldl_cons, ih, rows_push, List.any_cons]
    cases ends.does assertion with
    | false => rfl
    | true =>
      rw [if_pos rfl, worked_twice, ite_self]
      rfl

/-- What an undisturbed update reports of the message the server holds. -/
def updateReport (to_message_record : Value → MessageRecord) (patch : List (String × Value)) (reason : String) :
    Option Value → Except GatewayError (Option MessageReadback)
  | none => .error (.Rejected "message not found after mutation")
  | some email =>
    match apply email patch with
    | some after => .ok (some (.Present (to_message_record after)))
    | none => .error (.MutationRejected (.Present (to_message_record email)) reason)

/-- What an undisturbed push reports. -/
def Assertion.report (server : Server) (to_message_record : Value → MessageRecord) (assertion : Assertion)
    (held : Option Value) : Except GatewayError (Option MessageReadback) :=
  match assertion with
  | .SetKeywords command => updateReport to_message_record (keyword_patch command) server.invalid_patch held
  | .ReplaceMailboxes mailbox_ids =>
    updateReport to_message_record (mailboxIdsPatch mailbox_ids) (toString (GatewayError.Rejected server.invalid_patch)) held
  | .Destroy =>
    match held with
    | none => .error (.Rejected "message not found after mutation")
    | some _ => .ok (some .Removed)

theorem send_set_answered {ρ : Type} {change : Change String ρ SetError} {verdict : Verdict SetError}
    {collection : Collection String ρ} :
    (send_set server none change (.answered verdict)).run collection =
      .ok (collection.set server.minting server.absent change verdict).1
        (collection.set server.minting server.absent change verdict).2 := rfl

/-- What a mutation tells once both its requests are answered. -/
theorem reported_set_then_get {change : Change String Value SetError}
    {read : Answer String SetError → Except GatewayError MessageRecord → Except GatewayError MutationOutcome}
    {answer : Answer String SetError}
    (hserved : mailbox.set server.minting server.absent change .granted = (answer, after)) :
    Assertion.reported ((set_then_get server to_message_record message_id none change read .undisturbed).run mailbox) =
      (read answer (fetch_message_record to_message_record none message_id after)).map MutationOutcome.message := by
  have hrun : (set_then_get server to_message_record message_id none change read .undisturbed).run mailbox =
      EStateM.run (do
        match read answer (fetch_message_record to_message_record none message_id (← get)) with
        | .ok outcome => return outcome
        | .error error => throw error) after := by
    refine run_bind_of_ok ?_
    rw [show Ends.undisturbed.set = .answered .granted from rfl, send_set_answered, hserved]
  rw [hrun]
  show Assertion.reported (EStateM.run (match read answer _ with | .ok outcome => _ | .error error => _) after) = _
  cases read answer (fetch_message_record to_message_record none message_id after) with
  | ok outcome => rfl
  | error error => rfl

theorem fetch_of_find (hfind : mailbox.find message_id = some email) :
    fetch_message_record to_message_record none message_id mailbox = .ok (to_message_record email) := by
  rw [fetch_message_record, hfind]

theorem fetch_of_none (hfind : mailbox.find message_id = none) :
    fetch_message_record to_message_record none message_id mailbox =
      .error (.Rejected "message not found after mutation") := by
  rw [fetch_message_record, hfind]

theorem set_update {ρ : Type} {asked : String × (ρ → Except SetError ρ)} {collection served : Collection String ρ}
    {verdict : Verdict SetError} {outcome : Except SetError Unit}
    (hupdate : collection.update server.absent verdict.update asked = (outcome, served)) :
    collection.set server.minting server.absent ⟨none, some asked, none⟩ verdict =
      (⟨none, some outcome, none, served.version⟩, served) := by
  have hset : collection.set server.minting server.absent ⟨none, some asked, none⟩ verdict =
      (⟨none, some (collection.update server.absent verdict.update asked).1, none,
        (collection.update server.absent verdict.update asked).2.version⟩,
        (collection.update server.absent verdict.update asked).2) := rfl
  rw [hset, hupdate]

theorem set_destroy {ρ : Type} {id : String} {collection served : Collection String ρ} {verdict : Verdict SetError}
    {outcome : Except SetError Unit}
    (hdestroy : collection.destroy server.absent verdict.destroy id = (outcome, served)) :
    collection.set server.minting server.absent ⟨none, none, some id⟩ verdict =
      (⟨none, none, some outcome, served.version⟩, served) := by
  have hset : collection.set server.minting server.absent ⟨none, none, some id⟩ verdict =
      (⟨none, none, some (collection.destroy server.absent verdict.destroy id).1,
        (collection.destroy server.absent verdict.destroy id).2.version⟩,
        (collection.destroy server.absent verdict.destroy id).2) := rfl
  rw [hset, hdestroy]

/-- An update reads the message back. Refused, it reports the reason with the message as it was. -/
theorem reported_update (reason : String → String)
    {read : Answer String SetError → Except GatewayError MessageRecord → Except GatewayError MutationOutcome}
    (hdone : ∀ fetched version, (read ⟨none, some (.ok ()), none, version⟩ fetched).map MutationOutcome.message =
      .ok (fetched.toOption.map .Present))
    (hrefused : ∀ error fetched version, (read ⟨none, some (.error error), none, version⟩ fetched).map
      MutationOutcome.message = .error (message_rejected fetched (reason error.text))) :
    Assertion.reported ((set_then_get server to_message_record message_id none
        ⟨none, some (message_id, patching server patch), none⟩ read .undisturbed).run mailbox) =
      updateReport to_message_record patch (reason server.invalid_patch) (mailbox.find message_id) := by
  cases hfind : mailbox.find message_id with
  | none =>
    rw [reported_set_then_get (set_update (Collection.update_of_none hfind)), hrefused, fetch_of_none hfind]
    rfl
  | some email =>
    unfold updateReport
    cases happly : apply email patch with
    | none =>
      rw [reported_set_then_get (set_update (Collection.update_unfit hfind (patching_of_none happly))), hrefused,
        fetch_of_find hfind]
      simp only [happly]
      rfl
    | some after =>
      rw [reported_set_then_get (set_update (Collection.update_granted hfind (patching_of_some happly))), hdone,
        fetch_of_find (Collection.find_change hfind)]
      simp only [happly]
      rfl

theorem reported_undisturbed :
    Assertion.reported ((assertion.push server json to_message_record message_id .undisturbed).run mailbox) =
      assertion.report server to_message_record (mailbox.find message_id) := by
  cases assertion with
  | SetKeywords command =>
    unfold Assertion.push set_keywords
    refine reported_update (fun text => text) ?_ ?_
    · intro fetched version
      rfl
    · intro error fetched version
      rfl
  | ReplaceMailboxes mailbox_ids =>
    unfold Assertion.push replace_mailboxes
    refine reported_update (fun text => toString (GatewayError.Rejected text)) ?_ ?_
    · intro fetched version
      rfl
    · intro error fetched version
      rfl
  | Destroy =>
    unfold Assertion.push destroy_message Assertion.report
    cases hfind : mailbox.find message_id with
    | none =>
      rw [reported_set_then_get (set_destroy (Collection.destroy_of_none hfind)), fetch_of_none hfind]
      rfl
    | some email =>
      rw [reported_set_then_get (set_destroy (Collection.destroy_granted hfind))]
      rfl

theorem updateReport_patched (to_message_record : Value → MessageRecord) (reason : String) (held : Option Value) :
    updateReport to_message_record patch reason (held.map (Collection.patched (patching server patch))) =
      updateReport to_message_record patch reason held := by
  cases held with
  | none => rfl
  | some email =>
    rw [Option.map_some]
    cases happly : apply email patch with
    | none => rw [Collection.patched_of_error (patching_of_none happly)]
    | some after =>
      rw [Collection.patched_of_ok (patching_of_some happly)]
      unfold updateReport
      simp only [happly, apply_twice happly]

/-- After tries that were carried out, an assertion reports what it reports at first, but for a destroyed message. -/
theorem report_worked {before : Messages} (hrows : after.objects.rows = assertion.worked server message_id before.objects.rows) :
    assertion.report server to_message_record (after.find message_id) =
      if assertion = .Destroy ∧ (before.find message_id).isSome then .error (.Rejected "message not found after mutation")
      else assertion.report server to_message_record (before.find message_id) := by
  cases assertion with
  | SetKeywords command =>
    have hfind : after.find message_id =
        (before.find message_id).map (Collection.patched (patching server (keyword_patch command))) :=
      Collection.find_of_mapped hrows
    rw [if_neg (fun hdestroy => nomatch hdestroy.1), hfind]
    exact updateReport_patched to_message_record _ _
  | ReplaceMailboxes mailbox_ids =>
    have hfind : after.find message_id =
        (before.find message_id).map (Collection.patched (patching server (mailboxIdsPatch mailbox_ids))) :=
      Collection.find_of_mapped hrows
    rw [if_neg (fun hdestroy => nomatch hdestroy.1), hfind]
    exact updateReport_patched to_message_record _ _
  | Destroy =>
    rw [Collection.find_of_filtered hrows]
    cases before.find message_id with
    | none => rfl
    | some email => rfl

theorem outcome_of_reported {result : EStateM.Result GatewayError Messages MutationOutcome} {error : GatewayError}
    (hreported : Assertion.reported result = .error error) : Assertion.outcome result = .error error := by
  cases result with
  | ok outcome after => cases hreported
  | error failure after =>
    cases hreported
    rfl

/-- Every message assertion is delivered at least once: after any tries, each carried out or not, refused or left
    unanswered, one that is not disturbed leaves the same messages as if it had been the first. It also reports the
    same, unless a try already destroyed the message: then the outbox reads a permanent failure. -/
theorem assertions_redelivered (server : Server) (json : JsonText) (to_message_record : Value → MessageRecord)
    (message_id : MessageId) (assertion : Assertion) (mailbox : Messages) (tries : List Ends) :
    let push := assertion.push server json to_message_record message_id .undisturbed
    let first := push.run mailbox
    let last := push.run (tried server json to_message_record message_id assertion mailbox tries)
    (final last).objects = (final first).objects ∧
      if assertion = .Destroy ∧ (mailbox.find message_id).isSome ∧ tries.any (·.does .Destroy) then
        message_pushed (Assertion.outcome last) none =
          .error (.permanent "message not found after mutation")
      else Assertion.reported last = Assertion.reported first := by
  intro push first last
  let later := tried server json to_message_record message_id assertion mailbox tries
  have hrows : later.objects.rows = if tries.any (·.does assertion) then
      assertion.worked server message_id mailbox.objects.rows else mailbox.objects.rows := rows_tried tries
  have hworked : ∀ start : Messages, (final (push.run start)).objects.rows =
      assertion.worked server message_id start.objects.rows := fun start =>
    rows_push.trans (if_pos (by cases assertion <;> rfl))
  have hreport : ∀ start : Messages, Assertion.reported (push.run start) =
      assertion.report server to_message_record (start.find message_id) := fun start => reported_undisturbed
  constructor
  · refine Table.ext ?_
    rw [hworked, hworked, hrows]
    split_ifs
    · exact worked_twice _
    · rfl
  · cases hdone : tries.any (·.does assertion) with
    | false =>
      rw [hdone, if_neg Bool.false_ne_true] at hrows
      have hsame : Assertion.reported last = Assertion.reported first := by
        rw [hreport, hreport, Collection.find_congr hrows]
      split_ifs with hredone
      · obtain ⟨rfl, _, hdestroyed⟩ := hredone
        rw [hdone] at hdestroyed
        cases hdestroyed
      · exact hsame
    | true =>
      rw [hdone, if_pos rfl] at hrows
      have hlast := (hreport later).trans (report_worked hrows)
      split_ifs with hredone
      · obtain ⟨rfl, hheld, _⟩ := hredone
        rw [if_pos ⟨rfl, hheld⟩] at hlast
        rw [show Assertion.outcome last = _ from outcome_of_reported hlast]
        rfl
      · have hfresh : ¬ (assertion = .Destroy ∧ (mailbox.find message_id).isSome) := by
          rintro ⟨rfl, hheld⟩
          exact hredone ⟨rfl, hheld, hdone⟩
        rw [if_neg hfresh] at hlast
        exact hlast.trans (hreport mailbox).symm

end Redelivery

end Messages

end posthaste.engine
