import Posthaste.Engine.Client
import Posthaste.Library.Effects
import Posthaste.Service.Push

open posthaste.model posthaste.service

namespace posthaste.engine

inductive SendFiling where
  | Filed
  | PendingFiling
  deriving DecidableEq

/-- What the accessors of an `Email/set` response say. -/
structure SetEmailResponse where
  created : String → Except JmapError Unit
  has_updated : Bool
  unwrap_update_errors : Except JmapError Unit
  destroyed : String → Except JmapError Unit

/-- A method response, by what it unwraps to as one of the two methods of a send.
    An error of the method, or a response of another type, fails to unwrap. -/
structure TaggedMethodResponse where
  unwrap_set_email : Except JmapError SetEmailResponse
  unwrap_set_email_submission : Except JmapError (String → Except JmapError Unit)

/-- How the one request that submits the message ends. -/
inductive Dispatched where
  | elapsed
  | failed (error : JmapError)
  | answered (responses : List TaggedMethodResponse)

def dispatch_uncertain (reason : String) : GatewayError := .DispatchUncertain reason

/-- The dispatch phase decides: only a transport failure while connecting is safely transient. -/
def classify_send_dispatch_error : JmapError → GatewayError
  | .Transport true text => .Network text
  | .Transport false text => .DispatchUncertain s!"send transport lost after request; delivery uncertain: {text}"
  | .WebSocket text => .DispatchUncertain s!"send websocket lost after request; delivery uncertain: {text}"
  | error => map_gateway_error error

/-- The next method response, in the order of the calls. -/
def next_response (label : String) :
    List TaggedMethodResponse → Except GatewayError (TaggedMethodResponse × List TaggedMethodResponse)
  | [] => .error (dispatch_uncertain s!"send response truncated: missing {label}")
  | response :: rest => .ok (response, rest)

/-- The move to Sent. A draft that was not consumed is only warned about. -/
def read_sent_update (responses : List TaggedMethodResponse) : Except GatewayError SendFiling := do
  let (response, _) ← next_response "Email/set sent update" responses
  let sent_update ← response.unwrap_set_email.mapError map_gateway_error
  sent_update.unwrap_update_errors.mapError map_gateway_error
  return if sent_update.has_updated then .Filed else .PendingFiling

def read_submission (submission_create_id : String) (responses : List TaggedMethodResponse) :
    Except GatewayError SendFiling := do
  let (response, responses) ← next_response "EmailSubmission/set create" responses
  let submission_set ← response.unwrap_set_email_submission.mapError map_gateway_error
  (submission_set submission_create_id).mapError map_gateway_error
  read_sent_update responses

/-- Read the answer of the request, method by method. -/
def read_responses (email_create_id submission_create_id : String) (responses : List TaggedMethodResponse) :
    Except GatewayError SendFiling := do
  let (response, responses) ← next_response "Email/set create" responses
  let email_set ← response.unwrap_set_email.mapError map_gateway_error
  (email_set.created email_create_id).mapError map_gateway_error
  read_submission submission_create_id responses

/-- The end of a send, once its request went out. -/
def finish_send (email_create_id submission_create_id : String) : Dispatched → Except GatewayError SendFiling
  | .elapsed => .error (dispatch_uncertain "send timed out; delivery uncertain")
  | .failed error => .error (classify_send_dispatch_error error)
  | .answered responses => read_responses email_create_id submission_create_id responses

def emailCreateId (idempotency_key : String) : String := s!"{send_identity_token idempotency_key}-email"

def submissionCreateId (idempotency_key : String) : String := s!"{send_identity_token idempotency_key}-sub"

/-- Send a message. Nothing goes out when the lookups and uploads before the request fail. -/
def send_message (prepared : Except GatewayError Unit) (idempotency_key : String) (dispatched : Dispatched) :
    Except GatewayError SendFiling := do
  prepared
  finish_send (emailCreateId idempotency_key) (submissionCreateId idempotency_key) dispatched

section Fate

/-- The server says that it did not make the change. A partial failure does not say so. -/
def deniedBy {α : Type} : Except JmapError α → Bool
  | .error (.Method p_type _) => p_type ≠ .Other "serverPartialFail"
  | .error (.Set _) => true
  | _ => false

/-- The HTTP status tells that the request was refused. -/
def isRefusal (status : Nat) : Bool := 400 ≤ status && status ≤ 499

/-- The answer denies the email or its submission. -/
def deniesSubmission (email_create_id submission_create_id : String) : List TaggedMethodResponse → Bool
  | [] => false
  | first :: rest =>
    deniedBy (first.unwrap_set_email.bind (·.created email_create_id)) ||
      rest.head?.any fun second => deniedBy (second.unwrap_set_email_submission.bind (· submission_create_id))

/-- Nothing in the outcome shows that the submission was not committed. -/
def MayHaveCommitted (email_create_id submission_create_id : String) : Dispatched → Bool
  | .elapsed => true
  | .failed (.Transport is_connect _) => !is_connect
  | .failed (.Problem status _) => !status.any isRefusal
  | .failed (.Server message) => !(parse_leading_status message).any isRefusal
  | .failed _ => true
  | .answered responses => !deniesSubmission email_create_id submission_create_id responses

def sentUpdateDone (responses : List TaggedMethodResponse) : Bool :=
  responses.head?.all fun response => (response.unwrap_set_email.bind (·.unwrap_update_errors)).isOk

def submissionDone (submission_create_id : String) : List TaggedMethodResponse → Bool
  | [] => true
  | response :: rest =>
    (response.unwrap_set_email_submission.bind (· submission_create_id)).isOk && sentUpdateDone rest

/-- Every response that arrived reads as the success of its method. -/
def readsAsDone (email_create_id submission_create_id : String) : List TaggedMethodResponse → Bool
  | [] => true
  | response :: rest =>
    (response.unwrap_set_email.bind (·.created email_create_id)).isOk && submissionDone submission_create_id rest

/-- The request timed out, its connection was lost, or what arrived of the answer reports no error. -/
def TellsFate (email_create_id submission_create_id : String) : Dispatched → Bool
  | .elapsed => true
  | .failed (.Transport _ _) | .failed (.WebSocket _) => true
  | .failed _ => false
  | .answered responses => readsAsDone email_create_id submission_create_id responses

/-- The send ends in success, or parked as uncertain. -/
def FailsSafe (result : Except GatewayError SendFiling) : Prop :=
  ∀ error, result = .error error → (classify_gateway_error error).disposition = .Uncertain

/-- A mapped client error is retried or rejected, never parked. -/
theorem map_gateway_error_not_uncertain (error : JmapError) :
    (classify_gateway_error (map_gateway_error error)).disposition ≠ .Uncertain := by
  unfold map_gateway_error
  split <;> try split_ifs
  all_goals simp [classify_gateway_error]

theorem failsSafe_ok (filing : SendFiling) : FailsSafe (.ok filing) := by
  intro error hfails
  cases hfails

theorem failsSafe_uncertain (reason : String) : FailsSafe (.error (dispatch_uncertain reason)) := by
  intro error hfails
  cases hfails
  rfl

theorem not_failsSafe_mapped (error : JmapError) : ¬ FailsSafe (.error (map_gateway_error error)) :=
  fun hsafe => map_gateway_error_not_uncertain error (hsafe _ rfl)

/-- A step that may fail with a client error leaves the send safe when it does not fail. -/
theorem failsSafe_mapError_bind {α : Type} {step : Except JmapError α} {next : α → Except GatewayError SendFiling} :
    FailsSafe (step.mapError map_gateway_error >>= next) ↔ ∃ value, step = .ok value ∧ FailsSafe (next value) := by
  cases step with
  | error error =>
    refine iff_of_false (not_failsSafe_mapped error) ?_
    rintro ⟨_, hstep, _⟩
    cases hstep
  | ok value =>
    constructor
    · intro hsafe
      exact ⟨value, rfl, hsafe⟩
    · rintro ⟨_, hstep, hsafe⟩
      cases hstep
      exact hsafe

variable {email_create_id submission_create_id : String}

theorem isOk_bind_iff {α : Type} {step : Except JmapError α} {next : α → Except JmapError Unit} :
    (step.bind next).isOk = true ↔ ∃ value, step = .ok value ∧ next value = .ok () := by
  cases step with
  | error error => simp [Except.bind, Except.isOk, Except.toBool]
  | ok value => cases hnext : next value <;> simp [Except.bind, Except.isOk, Except.toBool, hnext]

theorem failsSafe_read_sent_update {responses : List TaggedMethodResponse} :
    FailsSafe (read_sent_update responses) ↔ sentUpdateDone responses = true := by
  cases responses with
  | nil => exact iff_of_true (failsSafe_uncertain _) rfl
  | cons response rest =>
    show FailsSafe (response.unwrap_set_email.mapError map_gateway_error >>= _) ↔
      (response.unwrap_set_email.bind (·.unwrap_update_errors)).isOk = true
    rw [failsSafe_mapError_bind, isOk_bind_iff]
    refine exists_congr fun sent_update => and_congr_right fun _ => ?_
    rw [failsSafe_mapError_bind]
    constructor
    · rintro ⟨_, hdone, _⟩
      exact hdone
    · intro hdone
      exact ⟨(), hdone, failsSafe_ok _⟩

theorem failsSafe_read_submission {responses : List TaggedMethodResponse} :
    FailsSafe (read_submission submission_create_id responses) ↔
      submissionDone submission_create_id responses = true := by
  cases responses with
  | nil => exact iff_of_true (failsSafe_uncertain _) rfl
  | cons response rest =>
    show FailsSafe (response.unwrap_set_email_submission.mapError map_gateway_error >>= _) ↔ _
    rw [failsSafe_mapError_bind, submissionDone, Bool.and_eq_true, isOk_bind_iff, exists_and_right.symm]
    refine exists_congr fun submission_set => ?_
    rw [failsSafe_mapError_bind, failsSafe_read_sent_update.symm, and_assoc]
    refine and_congr_right fun _ => ?_
    constructor
    · rintro ⟨_, hcreated, hrest⟩
      exact ⟨hcreated, hrest⟩
    · rintro ⟨hcreated, hrest⟩
      exact ⟨(), hcreated, hrest⟩

theorem failsSafe_read_responses {responses : List TaggedMethodResponse} :
    FailsSafe (read_responses email_create_id submission_create_id responses) ↔
      readsAsDone email_create_id submission_create_id responses = true := by
  cases responses with
  | nil => exact iff_of_true (failsSafe_uncertain _) rfl
  | cons response rest =>
    show FailsSafe (response.unwrap_set_email.mapError map_gateway_error >>= _) ↔ _
    rw [failsSafe_mapError_bind, readsAsDone, Bool.and_eq_true, isOk_bind_iff, exists_and_right.symm]
    refine exists_congr fun email_set => ?_
    rw [failsSafe_mapError_bind, failsSafe_read_submission.symm, and_assoc]
    refine and_congr_right fun _ => ?_
    constructor
    · rintro ⟨_, hcreated, hrest⟩
      exact ⟨hcreated, hrest⟩
    · rintro ⟨hcreated, hrest⟩
      exact ⟨(), hcreated, hrest⟩

/-- The server answers that email and submission were created, and then reports this update result. -/
def submittedThen (idempotency_key : String) (update : Except JmapError Unit) : List TaggedMethodResponse :=
  let found (id other : String) : Except JmapError Unit :=
    if id = other then .ok () else .error (.Internal s!"Id {other} not found.")
  [{ unwrap_set_email := .ok {
      created := found (emailCreateId idempotency_key), has_updated := false, unwrap_update_errors := .ok ()
      destroyed := found "" }
     unwrap_set_email_submission := .error (.Internal "Response type mismatch") },
   { unwrap_set_email := .error (.Internal "Response type mismatch")
     unwrap_set_email_submission := .ok (found (submissionCreateId idempotency_key)) },
   { unwrap_set_email := .ok {
      created := found "", has_updated := update.isOk, unwrap_update_errors := update, destroyed := found "" }
     unwrap_set_email_submission := .error (.Internal "Response type mismatch") }]

end Fate

/-- A send whose submission may have been committed ends in success or parked
    exactly when its request timed out, its connection was lost, or everything
    that arrived of the answer reads as success. -/
theorem send_fails_safe_iff (idempotency_key : String) {dispatched : Dispatched}
    (hcommitted : MayHaveCommitted (emailCreateId idempotency_key) (submissionCreateId idempotency_key) dispatched =
      true) :
    FailsSafe (send_message (.ok ()) idempotency_key dispatched) ↔
      TellsFate (emailCreateId idempotency_key) (submissionCreateId idempotency_key) dispatched = true := by
  show FailsSafe (finish_send _ _ dispatched) ↔ _
  cases dispatched with
  | elapsed => exact iff_of_true (failsSafe_uncertain _) rfl
  | answered responses => exact failsSafe_read_responses
  | failed error =>
    have hmapped : TellsFate (emailCreateId idempotency_key) (submissionCreateId idempotency_key) (.failed error) =
        false → classify_send_dispatch_error error = map_gateway_error error := by
      intro hlost
      cases error <;> first | rfl | cases hlost
    cases hlost : TellsFate (emailCreateId idempotency_key) (submissionCreateId idempotency_key) (.failed error) with
    | false =>
      simp only [finish_send, hmapped hlost, Bool.false_eq_true, iff_false]
      exact not_failsSafe_mapped error
    | true =>
      refine iff_of_true ?_ rfl
      cases error with
      | Transport is_connect text =>
        cases is_connect with
        | false => exact failsSafe_uncertain _
        | true => cases hcommitted
      | WebSocket text => exact failsSafe_uncertain _
      | Parse | Internal | Problem | Server | Method | Set => cases hlost

theorem send_fails_safe_truncated :
    FailsSafe (send_message (.ok ()) "op-1" (.answered ((submittedThen "op-1" (.ok ())).take 2))) :=
  (send_fails_safe_iff "op-1" (by decide)).mpr (by decide)

/-- After a commit a gateway timeout is resent blindly, and an update error of the
    sent copy rejects a send whose submission the same answer reports created. -/
theorem committed_send_is_resent_or_rejected :
    (MayHaveCommitted (emailCreateId "op-1") (submissionCreateId "op-1") (.failed (.Server "504 Gateway Timeout")) =
        true ∧
      ∃ error, send_message (.ok ()) "op-1" (.failed (.Server "504 Gateway Timeout")) = .error error ∧
        (classify_gateway_error error).disposition = .Transient) ∧
      MayHaveCommitted (emailCreateId "op-1") (submissionCreateId "op-1")
          (.answered (submittedThen "op-1" (.error (.Set "forbidden")))) = true ∧
        ∃ error, send_message (.ok ()) "op-1" (.answered (submittedThen "op-1" (.error (.Set "forbidden")))) =
            .error error ∧
          (classify_gateway_error error).disposition = .Permanent := by
  refine ⟨⟨by decide, _, rfl, ?_⟩, by decide, .Rejected "forbidden", ?_, rfl⟩
  · decide
  · rfl

end posthaste.engine
