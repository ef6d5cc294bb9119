import Posthaste.ReplicaCore.Invisible

namespace posthaste.replica

/-- Swap added and removed: the delta that takes the change back. -/
def KeywordDelta.inverse (delta : KeywordDelta) : KeywordDelta where
  added := delta.removed
  removed := delta.added

/-- Swap both facets. -/
def MessageChangeDiff.inverse (diff : MessageChangeDiff) : MessageChangeDiff where
  keywords := diff.keywords.inverse
  mailboxes := diff.mailboxes.inverse

/-- What the current set holds beyond the previous one, and what it lost. -/
def delta (prev curr : List String) : KeywordDelta where
  added := ((BTreeSet.from_iter curr).difference (BTreeSet.from_iter prev)).toList
  removed := ((BTreeSet.from_iter prev).difference (BTreeSet.from_iter curr)).toList

def MessageChangeDiff.from_before_after (prev curr : MessageFoldState) : MessageChangeDiff where
  keywords := delta prev.keywords curr.keywords
  mailboxes := delta prev.mailbox_ids curr.mailbox_ids

section Facet

variable {prev curr items : List String} {query : String}

@[simp] theorem mem_delta_added : query ∈ (delta prev curr).added ↔ query ∈ curr ∧ query ∉ prev := by
  simp [delta, ← BTreeSet.mem_iff]

@[simp] theorem mem_delta_removed : query ∈ (delta prev curr).removed ↔ query ∈ prev ∧ query ∉ curr := by
  simp [delta, ← BTreeSet.mem_iff]

/-- A delta leads from the members of the one list to those of the other. -/
theorem mem_applyDelta_delta (hitems : ∀ query, query ∈ items ↔ query ∈ prev) :
    query ∈ applyDelta items (delta prev curr).added (delta prev curr).removed ↔ query ∈ curr := by
  rw [mem_applyDelta, mem_delta_added, mem_delta_removed, hitems]
  tauto

/-- Its inverse leads back. -/
theorem mem_applyDelta_inverse (hitems : ∀ query, query ∈ items ↔ query ∈ curr) :
    query ∈ applyDelta items (delta prev curr).inverse.added (delta prev curr).inverse.removed ↔ query ∈ prev := by
  show query ∈ applyDelta items (delta prev curr).removed (delta prev curr).added ↔ _
  rw [mem_applyDelta, mem_delta_added, mem_delta_removed, hitems]
  tauto

end Facet

/-- Applied to the previous state, the diff gives the current one. -/
theorem sameOutcome_apply_diff {prev curr state : MessageFoldState} (hstate : state.Same prev) :
    SameOutcome (apply_message_assertion state (.ApplyDiff (.from_before_after prev curr))) (.Present curr) :=
  ⟨fun _ => mem_applyDelta_delta hstate.keywords, fun _ => mem_applyDelta_delta hstate.mailbox_ids⟩

/-- Applied to the current state, the inverse gives the previous one back. -/
theorem sameOutcome_apply_inverse {prev curr state : MessageFoldState} (hstate : state.Same curr) :
    SameOutcome (apply_message_assertion state (.ApplyDiff (MessageChangeDiff.from_before_after prev curr).inverse))
      (.Present prev) :=
  ⟨fun _ => mem_applyDelta_inverse hstate.keywords, fun _ => mem_applyDelta_inverse hstate.mailbox_ids⟩

/-- The diffs recorded along a history, first to last. -/
def recordedDiffs (first : MessageFoldState) : List MessageFoldState → List MessageChangeDiff
  | [] => []
  | next :: rest => .from_before_after first next :: recordedDiffs next rest

/-- The outcomes a replay passes through, one after each assertion. -/
def passesThrough (outcome : MessageOutcome) : List MessageAssertion → List MessageOutcome
  | [] => []
  | assertion :: rest =>
    replayFrom outcome [assertion] :: passesThrough (replayFrom outcome [assertion]) rest

def redo (diffs : List MessageChangeDiff) : List MessageAssertion := diffs.map .ApplyDiff

/-- The inverses, the last diff's first. -/
def undo (diffs : List MessageChangeDiff) : List MessageAssertion :=
  diffs.reverse.map fun diff => .ApplyDiff diff.inverse

/-- The outcomes are these states, one by one, compared as sets. -/
def AreStates (outcomes : List MessageOutcome) (states : List MessageFoldState) : Prop :=
  List.Forall₂ (fun outcome state => SameOutcome outcome (.Present state)) outcomes states

section Histories

variable {first : MessageFoldState} {rest : List MessageFoldState} {outcome : MessageOutcome}

theorem replayFrom_append (before after : List MessageAssertion) :
    replayFrom outcome (before ++ after) = replayFrom (replayFrom outcome before) after := by
  induction before generalizing outcome with
  | nil => rw [List.nil_append, replayFrom_nil]
  | cons assertion rest ih =>
    cases outcome with
    | Present state => exact ih
    | Removed => simp

theorem passesThrough_append (before after : List MessageAssertion) :
    passesThrough outcome (before ++ after) =
      passesThrough outcome before ++ passesThrough (replayFrom outcome before) after := by
  induction before generalizing outcome with
  | nil => rw [List.nil_append, replayFrom_nil]; rfl
  | cons assertion rest ih =>
    rw [List.cons_append, passesThrough, passesThrough, ih, ← replayFrom_append, List.singleton_append,
      List.cons_append]

theorem undo_cons (diff : MessageChangeDiff) (diffs : List MessageChangeDiff) :
    undo (diff :: diffs) = undo diffs ++ [.ApplyDiff diff.inverse] := by
  simp [undo]

/-- Redoing a history from its first state ends in its last. -/
theorem redo_ends (hstart : SameOutcome outcome (.Present first)) :
    SameOutcome (replayFrom outcome (redo (recordedDiffs first rest))) (.Present (rest.getLastD first)) := by
  induction rest generalizing first outcome with
  | nil =>
    show SameOutcome (replayFrom outcome []) _
    rw [replayFrom_nil]
    exact hstart
  | cons next rest ih =>
    rw [List.getLastD_cons]
    show SameOutcome (replayFrom outcome ([.ApplyDiff (.from_before_after first next)] ++ redo _)) _
    rw [replayFrom_append]
    exact ih ((sameOutcome_replayFrom hstart _).trans (sameOutcome_apply_diff (.refl first)))

/-- Redoing a history passes through its states. -/
theorem redo_passes (hstart : SameOutcome outcome (.Present first)) :
    AreStates (passesThrough outcome (redo (recordedDiffs first rest))) rest := by
  induction rest generalizing first outcome with
  | nil => exact .nil
  | cons next rest ih =>
    have hnext : SameOutcome (replayFrom outcome [.ApplyDiff (.from_before_after first next)]) (.Present next) :=
      (sameOutcome_replayFrom hstart _).trans (sameOutcome_apply_diff (.refl first))
    exact .cons hnext (ih hnext)

/-- Undoing a history from its last state ends in its first. -/
theorem undo_ends (hstart : SameOutcome outcome (.Present (rest.getLastD first))) :
    SameOutcome (replayFrom outcome (undo (recordedDiffs first rest))) (.Present first) := by
  induction rest generalizing first outcome with
  | nil =>
    show SameOutcome (replayFrom outcome []) _
    rw [replayFrom_nil]
    exact hstart
  | cons next rest ih =>
    rw [List.getLastD_cons] at hstart
    rw [recordedDiffs, undo_cons, replayFrom_append]
    have hnext := ih hstart
    exact (sameOutcome_replayFrom hnext _).trans (sameOutcome_apply_inverse (.refl next))

/-- Undoing a history passes through its states from the last but one to the first. -/
theorem undo_passes (hstart : SameOutcome outcome (.Present (rest.getLastD first))) :
    AreStates (passesThrough outcome (undo (recordedDiffs first rest))) (first :: rest).dropLast.reverse := by
  induction rest generalizing first outcome with
  | nil => exact .nil
  | cons next rest ih =>
    rw [List.getLastD_cons] at hstart
    rw [recordedDiffs, undo_cons, passesThrough_append, List.dropLast_cons_cons, List.reverse_cons]
    refine List.rel_append (ih hstart) (.cons ?_ .nil)
    exact (sameOutcome_replayFrom (undo_ends hstart) _).trans (sameOutcome_apply_inverse (.refl next))

end Histories

/-- The recorded diffs lead from the first state of a history through every later
    one, and their inverses lead from the last back through every earlier one. -/
theorem undo_retraces_history (first : MessageFoldState) (rest : List MessageFoldState) :
    (∀ start : MessageFoldState, start.Same first →
      AreStates (passesThrough (.Present start) (redo (recordedDiffs first rest))) rest ∧
        SameOutcome (replay_message start (redo (recordedDiffs first rest))) (.Present (rest.getLastD first))) ∧
      ∀ finish : MessageFoldState, finish.Same (rest.getLastD first) →
        AreStates (passesThrough (.Present finish) (undo (recordedDiffs first rest)))
          (first :: rest).dropLast.reverse := by
  refine ⟨fun start hstart => ⟨redo_passes ?_, redo_ends ?_⟩, fun finish hfinish => undo_passes ?_⟩
  · exact hstart
  · exact hstart
  · exact hfinish

end posthaste.replica
