import Posthaste.ReplicaCore.Invisible

namespace posthaste.replica

/-- What the coalescing loop carries from one assertion to the next. -/
structure Coalescing where
  added : List String
  removed : List String
  latest_mailboxes : Option (List String)
  saw_keywords : Bool

/-- Take the keyword off the other list and put it on this one, once. -/
def toggle (list other : List String) (keyword : String) : List String × List String :=
  (if keyword ∈ list then list else list ++ [keyword], other.filter (· ≠ keyword))

namespace Coalescing

def start : Coalescing := ⟨[], [], none, false⟩

def toggleAdded (coalescing : Coalescing) (keyword : String) : Coalescing :=
  { coalescing with
    added := (toggle coalescing.added coalescing.removed keyword).1
    removed := (toggle coalescing.added coalescing.removed keyword).2 }

def toggleRemoved (coalescing : Coalescing) (keyword : String) : Coalescing :=
  { coalescing with
    added := (toggle coalescing.removed coalescing.added keyword).2
    removed := (toggle coalescing.removed coalescing.added keyword).1 }

/-- One pass of the loop. `none` is the `unreachable!` of the source. -/
def step (coalescing : Coalescing) : MessageAssertion → Option Coalescing
  | .SetKeywords add remove =>
    some (remove.foldl toggleRemoved (add.foldl toggleAdded { coalescing with saw_keywords := true }))
  | .ReplaceMailboxes mailbox_ids => some { coalescing with latest_mailboxes := some mailbox_ids }
  | .Destroy => none
  | .ApplyDiff _ => none

def keywordAssertions (coalescing : Coalescing) : List MessageAssertion :=
  if coalescing.saw_keywords && (!coalescing.added.isEmpty || !coalescing.removed.isEmpty) then
    [.SetKeywords coalescing.added coalescing.removed]
  else []

def mailboxAssertions (coalescing : Coalescing) : List MessageAssertion :=
  match coalescing.latest_mailboxes with
  | some mailbox_ids => [.ReplaceMailboxes mailbox_ids]
  | none => []

end Coalescing

def MessageAssertion.isApplyDiff : MessageAssertion → Bool
  | .ApplyDiff _ => true
  | _ => false

/-- Coalesce the assertions pending on one message. A destroy stands alone, a
    log with a diff in it is left as it is. `none` is a panic. -/
def coalesce_message_assertions (assertions : List MessageAssertion) : Option (List MessageAssertion) :=
  if .Destroy ∈ assertions then some [.Destroy]
  else if assertions.any MessageAssertion.isApplyDiff then some assertions
  else do
    let coalescing ← assertions.foldlM Coalescing.step .start
    return coalescing.keywordAssertions ++ coalescing.mailboxAssertions

namespace Coalescing

variable {coalescing : Coalescing} {keywords : List String} {query : String}

/-- What the carried lists stand for: one patch of the keywords, one replace. -/
def effectOn (coalescing : Coalescing) (base : MessageFoldState) : MessageFoldState where
  keywords := applyDelta base.keywords coalescing.added coalescing.removed
  mailbox_ids := coalescing.latest_mailboxes.getD base.mailbox_ids

/-- Keywords stand on a list only after a keyword assertion was met. -/
def Sound (coalescing : Coalescing) : Prop :=
  coalescing.saw_keywords = false → coalescing.added = [] ∧ coalescing.removed = []

theorem mem_toggle {list other : List String} {keyword : String} :
    (query ∈ (toggle list other keyword).1 ↔ query = keyword ∨ query ∈ list) ∧
      (query ∈ (toggle list other keyword).2 ↔ query ≠ keyword ∧ query ∈ other) := by
  unfold toggle
  constructor
  · split_ifs with hheld
    · exact ⟨Or.inr, fun hquery => hquery.elim (fun heq => heq ▸ hheld) id⟩
    · rw [List.mem_append, List.mem_singleton, or_comm]
  · rw [List.mem_filter, decide_eq_true_iff, and_comm]

/-- Toggling a list of keywords on: all of them are added, none is removed. -/
theorem foldl_toggleAdded :
    (query ∈ (keywords.foldl toggleAdded coalescing).added ↔ query ∈ keywords ∨ query ∈ coalescing.added) ∧
      (query ∈ (keywords.foldl toggleAdded coalescing).removed ↔ query ∉ keywords ∧ query ∈ coalescing.removed) := by
  induction keywords generalizing coalescing with
  | nil => simp
  | cons keyword rest ih =>
    obtain ⟨hadded, hremoved⟩ := @ih (coalescing.toggleAdded keyword)
    obtain ⟨hon, hoff⟩ := @mem_toggle query coalescing.added coalescing.removed keyword
    rw [List.foldl_cons]
    constructor
    · rw [hadded, List.mem_cons]
      show _ ∨ query ∈ (toggle coalescing.added coalescing.removed keyword).1 ↔ _
      rw [hon, or_left_comm, or_assoc]
    · rw [hremoved, List.mem_cons]
      show _ ∧ query ∈ (toggle coalescing.added coalescing.removed keyword).2 ↔ _
      rw [hoff, not_or, and_left_comm, and_assoc]

/-- Toggling a list of keywords off: all of them are removed, none is added. -/
theorem foldl_toggleRemoved :
    (query ∈ (keywords.foldl toggleRemoved coalescing).added ↔ query ∉ keywords ∧ query ∈ coalescing.added) ∧
      (query ∈ (keywords.foldl toggleRemoved coalescing).removed ↔ query ∈ keywords ∨ query ∈ coalescing.removed) := by
  induction keywords generalizing coalescing with
  | nil => simp
  | cons keyword rest ih =>
    obtain ⟨hadded, hremoved⟩ := @ih (coalescing.toggleRemoved keyword)
    obtain ⟨hon, hoff⟩ := @mem_toggle query coalescing.removed coalescing.added keyword
    rw [List.foldl_cons]
    constructor
    · rw [hadded, List.mem_cons]
      show _ ∧ query ∈ (toggle coalescing.removed coalescing.added keyword).2 ↔ _
      rw [hoff, not_or, and_left_comm, and_assoc]
    · rw [hremoved, List.mem_cons]
      show _ ∨ query ∈ (toggle coalescing.removed coalescing.added keyword).1 ↔ _
      rw [hon, or_left_comm, or_assoc]

/-- Toggling touches the two keyword lists alone. -/
theorem foldl_toggle_kept :
    ((keywords.foldl toggleAdded coalescing).latest_mailboxes = coalescing.latest_mailboxes ∧
      (keywords.foldl toggleAdded coalescing).saw_keywords = coalescing.saw_keywords) ∧
      (keywords.foldl toggleRemoved coalescing).latest_mailboxes = coalescing.latest_mailboxes ∧
      (keywords.foldl toggleRemoved coalescing).saw_keywords = coalescing.saw_keywords := by
  induction keywords generalizing coalescing with
  | nil => exact ⟨⟨rfl, rfl⟩, rfl, rfl⟩
  | cons keyword rest ih =>
    exact ⟨(@ih (coalescing.toggleAdded keyword)).1, (@ih (coalescing.toggleRemoved keyword)).2⟩

/-- One pass of the loop carries on what the assertion does to the state so far. -/
theorem step_effect {assertion : MessageAssertion} (hsound : coalescing.Sound) (hdestroy : assertion ≠ .Destroy)
    (hdiff : assertion.isApplyDiff = false) :
    ∃ next, coalescing.step assertion = some next ∧ next.Sound ∧ ∀ base,
      SameOutcome (.Present (next.effectOn base)) (apply_message_assertion (coalescing.effectOn base) assertion) := by
  cases assertion with
  | SetKeywords add remove =>
    refine ⟨_, rfl, ?_, fun base => ⟨fun keyword => ?_, fun mailbox_id => ?_⟩⟩
    · intro hunseen
      rw [foldl_toggle_kept.2.2, foldl_toggle_kept.1.2] at hunseen
      cases hunseen
    · show keyword ∈ applyDelta _ _ _ ↔ keyword ∈ applyDelta (applyDelta _ _ _) _ _
      simp only [mem_applyDelta, foldl_toggleRemoved, foldl_toggleAdded]
      tauto
    · show mailbox_id ∈ Option.getD _ _ ↔ mailbox_id ∈ Option.getD _ _
      rw [foldl_toggle_kept.2.1, foldl_toggle_kept.1.1]
  | ReplaceMailboxes mailbox_ids => exact ⟨_, rfl, hsound, fun base => .refl _⟩
  | Destroy => exact absurd rfl hdestroy
  | ApplyDiff diff => cases hdiff

/-- The loop runs through, and what it carries at the end is what the log does. -/
theorem foldlM_step_effect {assertions : List MessageAssertion} (hsound : coalescing.Sound)
    (hdestroy : .Destroy ∉ assertions) (hdiff : ∀ assertion ∈ assertions, assertion.isApplyDiff = false) :
    ∃ last, assertions.foldlM step coalescing = some last ∧ last.Sound ∧ ∀ base,
      SameOutcome (.Present (last.effectOn base)) (replayFrom (.Present (coalescing.effectOn base)) assertions) := by
  induction assertions generalizing coalescing with
  | nil => exact ⟨coalescing, rfl, hsound, fun base => .refl _⟩
  | cons assertion rest ih =>
    rw [List.mem_cons, not_or] at hdestroy
    obtain ⟨next, hstep, hnext, hone⟩ := @step_effect coalescing assertion hsound (Ne.symm hdestroy.1)
      (hdiff assertion List.mem_cons_self)
    obtain ⟨last, hrun, hlast, hall⟩ := ih hnext hdestroy.2
      fun other hother => hdiff other (List.mem_cons_of_mem _ hother)
    refine ⟨last, ?_, hlast, fun base => ?_⟩
    · rw [List.foldlM_cons, hstep]
      exact hrun
    · rw [replayFrom_Present_cons]
      exact (hall base).trans (sameOutcome_replayFrom (hone base) rest)

/-- The assertions written out do what the carried lists stand for. -/
theorem replay_written (hsound : coalescing.Sound) (base : MessageFoldState) :
    SameOutcome (replay_message base (coalescing.keywordAssertions ++ coalescing.mailboxAssertions))
      (.Present (coalescing.effectOn base)) := by
  have hmailboxes : ∀ state, ∃ after, replayFrom (.Present state) coalescing.mailboxAssertions = .Present after ∧
      after.keywords = state.keywords ∧ after.mailbox_ids = coalescing.latest_mailboxes.getD state.mailbox_ids := by
    intro state
    unfold mailboxAssertions
    cases coalescing.latest_mailboxes with
    | none => exact ⟨state, rfl, rfl, rfl⟩
    | some mailbox_ids => exact ⟨_, rfl, rfl, rfl⟩
  unfold replay_message keywordAssertions
  split_ifs with hwritten
  · obtain ⟨after, hafter, hkeywords, hids⟩ := hmailboxes
      { base with keywords := applyDelta base.keywords coalescing.added coalescing.removed }
    rw [List.singleton_append, replayFrom_Present_cons]
    show SameOutcome (replayFrom (.Present _) _) _
    rw [hafter]
    exact ⟨fun keyword => by rw [hkeywords]; rfl, fun mailbox_id => by rw [hids]; rfl⟩
  · -- nothing is written: no keyword is listed, so the patch would change none
    have hempty : coalescing.added = [] ∧ coalescing.removed = [] := by
      cases hsaw : coalescing.saw_keywords with
      | false => exact hsound hsaw
      | true => simpa [hsaw] using hwritten
    obtain ⟨after, hafter, hkeywords, hids⟩ := hmailboxes base
    rw [List.nil_append, hafter]
    refine ⟨fun keyword => ?_, fun mailbox_id => by rw [hids]; rfl⟩
    show _ ↔ keyword ∈ applyDelta base.keywords coalescing.added coalescing.removed
    rw [hkeywords, hempty.1, hempty.2, mem_applyDelta]
    simp

end Coalescing

/-- A destroy removes the message whatever is pending around it. -/
theorem replay_destroyed {assertions : List MessageAssertion} (hdestroy : .Destroy ∈ assertions)
    (base : MessageFoldState) : replay_message base [.Destroy] = replay_message base assertions := by
  rw [(replay_message_eq_Removed_iff base assertions).mpr hdestroy]
  exact (replay_message_eq_Removed_iff base _).mpr List.mem_cons_self

/-- Coalescing never panics, and from every base the coalesced log replays to
    what the whole log replays to. -/
theorem coalescing_preserves_replay (assertions : List MessageAssertion) :
    ∃ coalesced, coalesce_message_assertions assertions = some coalesced ∧
      ∀ base, SameOutcome (replay_message base coalesced) (replay_message base assertions) := by
  unfold coalesce_message_assertions
  by_cases hdestroy : .Destroy ∈ assertions
  · refine ⟨_, if_pos hdestroy, fun base => ?_⟩
    rw [replay_destroyed hdestroy]
    exact .refl _
  rw [if_neg hdestroy]
  by_cases hdiff : assertions.any MessageAssertion.isApplyDiff
  · exact ⟨_, if_pos hdiff, fun base => .refl _⟩
  rw [if_neg hdiff]
  have hnone : ∀ assertion ∈ assertions, assertion.isApplyDiff = false := by simpa using hdiff
  obtain ⟨last, hrun, hsound, heffect⟩ :=
    @Coalescing.foldlM_step_effect .start _ (fun _ => ⟨rfl, rfl⟩) hdestroy hnone
  refine ⟨_, by rw [hrun]; rfl, fun base => (Coalescing.replay_written hsound base).trans ((heffect base).trans ?_)⟩
  -- before the first assertion the carried lists change nothing
  apply sameOutcome_replayFrom
  refine ⟨fun keyword => ?_, fun mailbox_id => Iff.rfl⟩
  show keyword ∈ applyDelta base.keywords [] [] ↔ _
  rw [mem_applyDelta]
  simp

end posthaste.replica
