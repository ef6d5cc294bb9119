import Posthaste.DomainModel.Outbox
import Posthaste.Library.Effects
import Posthaste.Library.Str
import Posthaste.ReplicaCore.Message

open posthaste.model posthaste.replica

namespace posthaste.service

/-- What an intent makes visible in the overlay plane. -/
inductive FoldEffect where
  | Assert (assertion : MessageAssertion)
  | UpsertDraft (request : SendMessageRequest)
  | TombstoneDraft
  | SendEffects (consumes_draft_key : Option String) (request : SendMessageRequest)
  deriving DecidableEq

/-- The one interpreter from typed intent to fold effect. -/
def intentEffect : MailIntent → FoldEffect
  | .SetKeywords command => .Assert (.SetKeywords command.add command.remove)
  | .ReplaceMailboxes command => .Assert (.ReplaceMailboxes command.mailbox_ids)
  | .Destroy => .Assert .Destroy
  | .SaveDraft _ request => .UpsertDraft request
  | .DiscardDraft _ => .TombstoneDraft
  | .Send request => .SendEffects (request.draft_id.bind str.nonBlank) request

def intent_fold_effect (operation : Operation) : Except ServiceError FoldEffect :=
  match operation.intent with
  | .ok intent => .ok (intentEffect intent)
  | .error error => .error (.Gateway (.Internal error))

/-- The ordered assertions a message's operations make. -/
def message_assertions (operations : List Operation) (message_id : String) :
    Except ServiceError (List MessageAssertion) :=
  match operations with
  | [] => .ok []
  | operation :: rest =>
    if operation.entity.id = message_id then do
      let effect ← intent_fold_effect operation
      let assertions ← message_assertions rest message_id
      match effect with
      | .Assert assertion => return assertion :: assertions
      | _ => return assertions
    else message_assertions rest message_id

/-- Replay the remaining assertions over a record; `none` when it folds to removed. -/
def project_record (record : MessageRecord) (remaining_ops : List Operation) :
    Except ServiceError (Option MessageRecord) := do
  let assertions ← message_assertions remaining_ops record.id
  match replay_message { keywords := record.keywords, mailbox_ids := record.mailbox_ids } assertions with
  | .Removed => return none
  | .Present state => return some { record with keywords := state.keywords, mailbox_ids := state.mailbox_ids }

@[simp] theorem message_assertions_nil (message_id : String) : message_assertions [] message_id = .ok [] := rfl

/-- The assertion a state-assertion operation makes, once it decodes. -/
def assertionOf (operation : Operation) : MessageAssertion :=
  match intent_fold_effect operation with
  | .ok (.Assert assertion) => assertion
  | _ => .Destroy

/-- The operation decodes to an assertion. -/
def Asserts (operation : Operation) : Prop :=
  intent_fold_effect operation = .ok (.Assert (assertionOf operation))

theorem intent_fold_effect_eq_ok_iff {operation : Operation} {effect : FoldEffect} :
    intent_fold_effect operation = .ok effect ↔
      ∃ intent, operation.intent = .ok intent ∧ intentEffect intent = effect := by
  unfold intent_fold_effect
  cases operation.intent with
  | ok intent => simp
  | error error => simp

/-- A state assertion that decodes at all decodes to an assertion. -/
theorem asserts_of_effect {operation : Operation} {effect : FoldEffect}
    (hkind : operation.kind.is_state_assertion) (heffect : intent_fold_effect operation = .ok effect) :
    Asserts operation := by
  obtain ⟨intent, hintent, rfl⟩ := intent_fold_effect_eq_ok_iff.mp heffect
  have hintentKind : intent.kind = operation.kind := MailIntent.kind_of_from_parts hintent
  have hassert : ∃ assertion, intentEffect intent = .Assert assertion := by
    cases intent with
    | SetKeywords command => exact ⟨_, rfl⟩
    | ReplaceMailboxes command => exact ⟨_, rfl⟩
    | Destroy => exact ⟨_, rfl⟩
    | SaveDraft create request =>
      rw [← hintentKind] at hkind
      cases create <;> cases hkind
    | DiscardDraft idempotent_redelivery =>
      rw [← hintentKind] at hkind
      cases hkind
    | Send request =>
      rw [← hintentKind] at hkind
      cases hkind
  obtain ⟨assertion, hassertion⟩ := hassert
  simp only [Asserts, assertionOf, heffect, hassertion]

theorem message_assertions_of_asserts {operations : List Operation} {message_id : String}
    (hentity : ∀ operation ∈ operations, operation.entity.id = message_id)
    (hasserts : ∀ operation ∈ operations, Asserts operation) :
    message_assertions operations message_id = .ok (operations.map assertionOf) := by
  induction operations with
  | nil => rfl
  | cons operation rest ih =>
    have hrest := ih (fun other hmem => hentity other (List.mem_cons_of_mem _ hmem))
      (fun other hmem => hasserts other (List.mem_cons_of_mem _ hmem))
    have hhead : intent_fold_effect operation = .ok (.Assert (assertionOf operation)) :=
      hasserts operation List.mem_cons_self
    rw [message_assertions, if_pos (hentity operation List.mem_cons_self), hhead, hrest]
    rfl

theorem asserts_of_message_assertions {operations : List Operation} {message_id : String}
    {assertions : List MessageAssertion}
    (hentity : ∀ operation ∈ operations, operation.entity.id = message_id)
    (hkind : ∀ operation ∈ operations, operation.kind.is_state_assertion)
    (hdecode : message_assertions operations message_id = .ok assertions) :
    ∀ operation ∈ operations, Asserts operation := by
  induction operations generalizing assertions with
  | nil => simp
  | cons operation rest ih =>
    rw [message_assertions, if_pos (hentity operation List.mem_cons_self)] at hdecode
    obtain ⟨effect, heffect, hdecode⟩ := effects.except_bind_eq_ok_iff.mp hdecode
    obtain ⟨later, hlater, _⟩ := effects.except_bind_eq_ok_iff.mp hdecode
    intro other hmem
    rcases List.mem_cons.mp hmem with rfl | hmem
    · exact asserts_of_effect (hkind other List.mem_cons_self) heffect
    · exact ih (fun op hop => hentity op (List.mem_cons_of_mem _ hop))
        (fun op hop => hkind op (List.mem_cons_of_mem _ hop)) hlater other hmem

/-- A record's replay state. -/
def foldState (record : MessageRecord) : MessageFoldState where
  keywords := record.keywords
  mailbox_ids := record.mailbox_ids

/-- A record after a replay; `none` when the replay removed it. -/
def withOutcome (record : MessageRecord) : MessageOutcome → Option MessageRecord
  | .Removed => none
  | .Present state => some { record with keywords := state.keywords, mailbox_ids := state.mailbox_ids }

theorem project_record_eq {record : MessageRecord} {operations : List Operation}
    {assertions : List MessageAssertion} (hdecode : message_assertions operations record.id = .ok assertions) :
    project_record record operations = .ok (withOutcome record (replay_message (foldState record) assertions)) := by
  rw [project_record, hdecode, effects.except_bind_ok]
  unfold foldState
  cases replay_message { keywords := record.keywords, mailbox_ids := record.mailbox_ids } assertions <;> rfl

theorem message_assertions_of_project {record : MessageRecord} {operations : List Operation}
    {projected : Option MessageRecord} (hproject : project_record record operations = .ok projected) :
    ∃ assertions, message_assertions operations record.id = .ok assertions ∧
      projected = withOutcome record (replay_message (foldState record) assertions) := by
  obtain ⟨assertions, hdecode, _⟩ := effects.except_bind_eq_ok_iff.mp hproject
  refine ⟨assertions, hdecode, ?_⟩
  rw [project_record_eq hdecode] at hproject
  exact (Except.ok.inj hproject).symm

end posthaste.service
