import Posthaste.Library.BTreeSet
import Mathlib.Data.String.Basic

namespace posthaste.replica

/-- Result of folding effects over an entity: its new state, or removed. -/
inductive Outcome (σ : Type) where
  | Present (state : σ)
  | Removed
  deriving DecidableEq

/-- The part of a message's state that an assertion transforms. -/
structure MessageFoldState where
  keywords : List String
  mailbox_ids : List String
  deriving DecidableEq

structure KeywordDelta where
  added : List String
  removed : List String
  deriving DecidableEq

structure MessageChangeDiff where
  keywords : KeywordDelta
  mailboxes : KeywordDelta
  deriving DecidableEq

/-- A named mutation's local effect on one message. -/
inductive MessageAssertion where
  | SetKeywords (add remove : List String)
  | ReplaceMailboxes (mailbox_ids : List String)
  | Destroy
  | ApplyDiff (diff : MessageChangeDiff)
  deriving DecidableEq

abbrev MessageOutcome := Outcome MessageFoldState

def applyDelta (items added removed : List String) : List String :=
  (((BTreeSet.from_iter items).extend added).removeAll removed).toList

def apply_message_assertion (state : MessageFoldState) (assertion : MessageAssertion) : MessageOutcome :=
  match assertion with
  | .SetKeywords add remove => .Present { state with keywords := applyDelta state.keywords add remove }
  | .ReplaceMailboxes mailbox_ids => .Present { state with mailbox_ids := mailbox_ids }
  | .ApplyDiff diff =>
    .Present {
      keywords := applyDelta state.keywords diff.keywords.added diff.keywords.removed
      mailbox_ids := applyDelta state.mailbox_ids diff.mailboxes.added diff.mailboxes.removed }
  | .Destroy => .Removed

def replayFrom (outcome : MessageOutcome) : List MessageAssertion → MessageOutcome
  | [] => outcome
  | assertion :: rest =>
    match outcome with
    | .Present state => replayFrom (apply_message_assertion state assertion) rest
    | .Removed => .Removed

/-- Fold an ordered list of assertions over a confirmed base. -/
def replay_message (base : MessageFoldState) (assertions : List MessageAssertion) : MessageOutcome :=
  replayFrom (.Present base) assertions

@[simp] theorem mem_applyDelta {items added removed : List String} {query : String} :
    query ∈ applyDelta items added removed ↔ query ∉ removed ∧ (query ∈ added ∨ query ∈ items) := by
  simp [applyDelta, ← BTreeSet.mem_iff]

@[simp] theorem replayFrom_nil (outcome : MessageOutcome) : replayFrom outcome [] = outcome := by
  cases outcome <;> rfl

@[simp] theorem replayFrom_Removed (assertions : List MessageAssertion) :
    replayFrom .Removed assertions = .Removed := by
  cases assertions <;> rfl

@[simp] theorem replayFrom_Present_cons (state : MessageFoldState) (assertion : MessageAssertion)
    (rest : List MessageAssertion) :
    replayFrom (.Present state) (assertion :: rest) =
      replayFrom (apply_message_assertion state assertion) rest := rfl

/-- A Destroy anywhere in the log removes the message, whatever stands around it. -/
theorem replay_message_eq_Removed_iff (base : MessageFoldState) (assertions : List MessageAssertion) :
    replay_message base assertions = .Removed ↔ MessageAssertion.Destroy ∈ assertions := by
  unfold replay_message
  induction assertions generalizing base with
  | nil => simp
  | cons assertion rest ih =>
    cases assertion with
    | SetKeywords add remove => simpa [apply_message_assertion] using ih _
    | ReplaceMailboxes mailbox_ids => simpa [apply_message_assertion] using ih _
    | Destroy => simp [apply_message_assertion]
    | ApplyDiff diff => simpa [apply_message_assertion] using ih _

end posthaste.replica
