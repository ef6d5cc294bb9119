import Posthaste.ReplicaCore.Retirement

namespace posthaste.replica

section Sets

variable {first second third : MessageFoldState}

/-- The same keyword set and the same mailbox set. -/
structure MessageFoldState.Same (first second : MessageFoldState) : Prop where
  keywords : ∀ keyword, keyword ∈ first.keywords ↔ keyword ∈ second.keywords
  mailbox_ids : ∀ mailbox_id, mailbox_id ∈ first.mailbox_ids ↔ mailbox_id ∈ second.mailbox_ids

theorem from_iter_toList_eq_iff {first second : List String} :
    (BTreeSet.from_iter first).toList = (BTreeSet.from_iter second).toList ↔ ∀ member, member ∈ first ↔ member ∈ second := by
  constructor
  · intro hsame member
    rw [← BTreeSet.mem_from_iter, BTreeSet.mem_iff, hsame, ← BTreeSet.mem_iff, BTreeSet.mem_from_iter]
  · intro hmem
    apply (BTreeSet.sorted _).eq_of_mem_iff (BTreeSet.sorted _)
    intro member
    rw [← BTreeSet.mem_iff, ← BTreeSet.mem_iff, BTreeSet.mem_from_iter, BTreeSet.mem_from_iter]
    exact hmem member

theorem MessageFoldState.eq_iff_same : first.eq second = true ↔ first.Same second := by
  unfold MessageFoldState.eq
  rw [Bool.and_eq_true, decide_eq_true_iff, decide_eq_true_iff, from_iter_toList_eq_iff, from_iter_toList_eq_iff]
  exact ⟨fun ⟨hkeywords, hmailboxes⟩ => ⟨hkeywords, hmailboxes⟩, fun hsame => ⟨hsame.keywords, hsame.mailbox_ids⟩⟩

theorem MessageFoldState.Same.refl (state : MessageFoldState) : state.Same state := ⟨fun _ => Iff.rfl, fun _ => Iff.rfl⟩

theorem MessageFoldState.Same.symm (hsame : first.Same second) : second.Same first :=
  ⟨fun keyword => (hsame.keywords keyword).symm, fun mailbox_id => (hsame.mailbox_ids mailbox_id).symm⟩

theorem MessageFoldState.Same.trans (hfirst : first.Same second) (hsecond : second.Same third) : first.Same third :=
  ⟨fun keyword => (hfirst.keywords keyword).trans (hsecond.keywords keyword),
    fun mailbox_id => (hfirst.mailbox_ids mailbox_id).trans (hsecond.mailbox_ids mailbox_id)⟩

/-- Outcomes compared as sets. -/
def SameOutcome : MessageOutcome → MessageOutcome → Prop
  | .Present first, .Present second => first.Same second
  | .Removed, .Removed => True
  | _, _ => False

theorem SameOutcome.refl (outcome : MessageOutcome) : SameOutcome outcome outcome := by
  cases outcome with
  | Present state => exact MessageFoldState.Same.refl state
  | Removed => trivial

theorem SameOutcome.trans {first second third : MessageOutcome} (hfirst : SameOutcome first second)
    (hsecond : SameOutcome second third) : SameOutcome first third := by
  cases first <;> cases second <;> cases third <;> first | exact MessageFoldState.Same.trans hfirst hsecond | trivial

/-- An assertion acts on the sets alone. -/
theorem sameOutcome_apply (hsame : first.Same second) (assertion : MessageAssertion) :
    SameOutcome (apply_message_assertion first assertion) (apply_message_assertion second assertion) := by
  cases assertion with
  | SetKeywords add remove =>
    refine ⟨fun keyword => ?_, hsame.mailbox_ids⟩
    simp only [mem_applyDelta, hsame.keywords keyword]
  | ReplaceMailboxes mailbox_ids => exact ⟨hsame.keywords, fun _ => Iff.rfl⟩
  | Destroy => trivial
  | ApplyDiff diff =>
    refine ⟨fun keyword => ?_, fun mailbox_id => ?_⟩
    · simp only [mem_applyDelta, hsame.keywords keyword]
    · simp only [mem_applyDelta, hsame.mailbox_ids mailbox_id]

theorem sameOutcome_replayFrom {first second : MessageOutcome} (hsame : SameOutcome first second)
    (assertions : List MessageAssertion) : SameOutcome (replayFrom first assertions) (replayFrom second assertions) := by
  induction assertions generalizing first second with
  | nil => simpa using hsame
  | cons assertion rest ih =>
    cases first with
    | Present left =>
      cases second with
      | Present right =>
        rw [replayFrom_Present_cons, replayFrom_Present_cons]
        exact ih (sameOutcome_apply hsame assertion)
      | Removed => exact hsame.elim
    | Removed =>
      cases second with
      | Present right => exact hsame.elim
      | Removed => trivial

end Sets

namespace Replica

section Walk

theorem eq_single (first second : MessageFoldState) :
    Convergence.eq MessageAssertion first second = first.eq second := rfl

theorem fold_single (state : MessageFoldState) (assertion : MessageAssertion) :
    Convergence.fold state [assertion] = apply_message_assertion state assertion := by
  show replay_message state [assertion] = _
  unfold replay_message
  rw [replayFrom_Present_cons, replayFrom_nil]

/-- Taking absorbed mutations away does not change what the entity folds to. -/
theorem replay_of_dropped {dropped : MutationId → Bool} {running : MessageFoldState}
    {operations : List PendingMessageMutation} (hnodup : (operations.map PendingMutation.id).Nodup)
    (hdropped : ∀ held ∈ operations, dropped held.id = true → held.id ∈ walk (fun _ => true) running operations) :
    SameOutcome
      (replay_message running ((operations.filter fun held => !dropped held.id).map PendingMutation.effect))
      (replay_message running (operations.map PendingMutation.effect)) := by
  unfold replay_message
  induction operations generalizing running with
  | nil => exact .refl _
  | cons held rest ih =>
    rw [List.map_cons, List.nodup_cons] at hnodup
    have hne : ∀ other ∈ rest, other.id ≠ held.id := by
      intro other hother hsame
      exact hnodup.1 (hsame ▸ List.mem_map_of_mem hother)
    rw [List.map_cons, replayFrom_Present_cons]
    simp only [walk, fold_single, eq_single, if_true] at hdropped
    cases happly : apply_message_assertion running held.effect with
    | Removed =>
      -- a destroy is never absorbed, so it stays and removes on both sides
      simp only [happly] at hdropped
      have hkept : dropped held.id = false := by
        by_contra hgone
        exact hnodup.1 (walk_sublist.mem (hdropped held List.mem_cons_self (by simpa using hgone)))
      rw [List.filter_cons_of_pos (by simp [hkept]), List.map_cons, replayFrom_Present_cons, happly,
        replayFrom_Removed, replayFrom_Removed]
      trivial
    | Present next =>
      simp only [happly] at hdropped
      by_cases habsorbed : MessageFoldState.eq next running = true
      · have hsame := MessageFoldState.eq_iff_same.mp habsorbed
        rw [if_pos habsorbed] at hdropped
        have hrest : ∀ other ∈ rest, dropped other.id = true → other.id ∈ walk (fun _ => true) running rest := by
          intro other hother hdrop
          have hmem := hdropped other (List.mem_cons_of_mem _ hother) hdrop
          exact (List.mem_cons.mp hmem).resolve_left (hne other hother)
        have hnext : ∀ assertions, SameOutcome (replayFrom (.Present running) assertions)
            (replayFrom (.Present next) assertions) :=
          sameOutcome_replayFrom (show SameOutcome (.Present running) (.Present next) from hsame.symm)
        have hprev : ∀ assertions, SameOutcome (replayFrom (.Present next) assertions)
            (replayFrom (.Present running) assertions) :=
          sameOutcome_replayFrom (show SameOutcome (.Present next) (.Present running) from hsame)
        cases hgone : dropped held.id with
        | true =>
          rw [List.filter_cons_of_neg (by simp [hgone])]
          exact (ih hnodup.2 hrest).trans (hnext _)
        | false =>
          rw [List.filter_cons_of_pos (by simp [hgone]), List.map_cons, replayFrom_Present_cons, happly]
          exact ((hprev _).trans (ih hnodup.2 hrest)).trans (hnext _)
      · rw [if_neg habsorbed] at hdropped
        have hkept : dropped held.id = false := by
          by_contra hgone
          exact hnodup.1 (walk_sublist.mem (hdropped held List.mem_cons_self (by simpa using hgone)))
        rw [List.filter_cons_of_pos (by simp [hkept]), List.map_cons, replayFrom_Present_cons, happly]
        exact ih hnodup.2 fun other hother hdrop => hdropped other (List.mem_cons_of_mem _ hother) hdrop

end Walk

section Invisible

variable {replica : MessageReplica} {key : String}

/-- Projections compared as sets. -/
def SameProjection : Option MessageOutcome → Option MessageOutcome → Prop
  | some first, some second => SameOutcome first second
  | none, none => True
  | _, _ => False

/-- A step on one entity that nobody can see: every projection shows the same,
    and the other entities' outboxes and base are not touched. -/
structure Invisible (key : String) (before after : MessageReplica) : Prop where
  projections : ∀ other, SameProjection (after.project other) (before.project other)
  others : ∀ other, other ≠ key → after.pendingOn other = before.pendingOn other
  base : after.base = before.base

theorem sameProjection_refl (projection : Option MessageOutcome) : SameProjection projection projection := by
  cases projection with
  | none => trivial
  | some outcome => exact .refl outcome

theorem Invisible.refl (key : String) (replica : MessageReplica) : Invisible key replica replica :=
  ⟨fun _ => sameProjection_refl _, fun _ _ => rfl, rfl⟩

/-- An id of one entity names no other entity's mutation. -/
theorem not_mem_of_other {ids : List MutationId} {other : String} {held : PendingMessageMutation}
    (hids : ∀ id ∈ ids, id ∈ (replica.pendingOn key).map PendingMutation.id) (hother : other ≠ key)
    (hheld : held ∈ replica.pendingOn other) : held.id ∉ ids := by
  intro hmem
  obtain ⟨found, hfound, hsame⟩ := List.mem_map.mp (hids held.id hmem)
  obtain ⟨hfoundStored, hfoundKey⟩ := List.mem_filter.mp hfound
  obtain ⟨hstored, hkey⟩ := List.mem_filter.mp hheld
  obtain rfl := List.inj_on_of_nodup_map replica.ids_nodup hfoundStored hstored hsame
  exact hother ((of_decide_eq_true hkey).symm.trans (of_decide_eq_true hfoundKey))

/-- Absorbed mutations leave unseen. -/
theorem invisible_leave {ids : List MutationId}
    (hids : ∀ id ∈ ids, id ∈ absorbed (replica.base key) (replica.pendingOn key)) :
    Invisible key replica (replica.leave ids) := by
  have hon : ∀ id ∈ ids, id ∈ (replica.pendingOn key).map PendingMutation.id :=
    fun id hmem => absorbed_sublist.mem (hids id hmem)
  have hothers : ∀ other, other ≠ key → (replica.leave ids).pendingOn other = replica.pendingOn other := by
    intro other hother
    rw [pendingOn_leave, List.filter_eq_self]
    intro held hheld
    exact decide_eq_true (not_mem_of_other hon hother hheld)
  refine ⟨fun other => ?_, hothers, rfl⟩
  unfold project
  rw [base_leave]
  by_cases hother : other = key
  · subst hother
    cases hbase : replica.base other with
    | none => trivial
    | some base =>
      rw [hbase] at hids
      rw [pendingOn_leave]
      have hfilter : (replica.pendingOn other).filter (fun held => decide (held.id ∉ ids)) =
          (replica.pendingOn other).filter fun held => !decide (held.id ∈ ids) :=
        List.filter_congr fun held _ => by rw [decide_not]
      rw [hfilter]
      have hgone : ∀ held ∈ replica.pendingOn other, decide (held.id ∈ ids) = true →
          held.id ∈ walk (fun _ => true) base (replica.pendingOn other) :=
        fun held _ hgone => hids held.id (of_decide_eq_true hgone)
      exact @replay_of_dropped (fun id => decide (id ∈ ids)) base _ ids_pendingOn_nodup hgone
  · rw [hothers other hother]
    exact sameProjection_refl _

theorem invisible_retire_absorbed_at (current_version : Option UInt64) :
    Invisible key replica (replica.retire_absorbed_at key current_version).2 := by
  rw [retire_absorbed_at_eq]
  exact invisible_leave fun _ hmem => (mem_retired_iff.mp hmem).1

/-- Retirement shows nowhere: by itself, at a version, or on a confirmation. -/
theorem retirement_is_invisible (replica : MessageReplica) :
    (∀ key, Invisible key replica (replica.retire_absorbed key).2) ∧
      (∀ key current_version, Invisible key replica (replica.retire_absorbed_at key current_version).2) ∧
      (∀ held ∈ replica.pending, Invisible held.key replica (replica.settle held.id .Confirmed).2) ∧
      ∀ id, id ∉ replica.pending.map PendingMutation.id → (replica.settle id .Confirmed).2 = replica := by
  refine ⟨fun key => invisible_retire_absorbed_at none, fun key => invisible_retire_absorbed_at, ?_, ?_⟩
  · intro held hheld
    rw [settle_confirmed_of_pending hheld]
    obtain ⟨hprojections, hothers, hbase⟩ := @invisible_leave (replica.mark_confirmed held.id) held.key
      ((replica.mark_confirmed held.id).retired held.key none) fun _ hmem => (mem_retired_iff.mp hmem).1
    exact ⟨hprojections, hothers, hbase⟩
  · intro id hunknown
    rw [settle_confirmed_of_unknown hunknown]

end Invisible

end Replica

end posthaste.replica
