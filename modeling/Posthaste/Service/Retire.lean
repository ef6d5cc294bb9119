import Posthaste.Service.Replayed

open posthaste.model posthaste.replica posthaste.store

namespace posthaste.service

open MailService

/-- The row's overlay entry is the one the fold of the stored log leaves there. -/
def FoldedAt (store : DatabaseStore) (row : MessageId) : Prop :=
  ∃ mutation, fold_overlay_row (store.snapshot row) row = .ok mutation ∧
    (store.apply_overlay_mutation_tx row mutation).message_overlay.lookup row = store.message_overlay.lookup row

section Folded

variable {store after : DatabaseStore} {row other : MessageId}

private theorem lookup_apply_congr (hentry : after.message_overlay.lookup row = store.message_overlay.lookup row)
    (mutation : OverlayMutation) :
    (after.apply_overlay_mutation_tx row mutation).message_overlay.lookup row =
      (store.apply_overlay_mutation_tx row mutation).message_overlay.lookup row := by
  cases mutation with
  | Upsert record =>
    unfold DatabaseStore.apply_overlay_mutation_tx DatabaseStore.upsert_overlay_tx
    by_cases hid : row = record.id
    · rw [hid, AList.lookup_insert, AList.lookup_insert]
    · rw [AList.lookup_insert_ne hid, AList.lookup_insert_ne hid, hentry]
  | Tombstone =>
    unfold DatabaseStore.apply_overlay_mutation_tx DatabaseStore.tombstone_overlay_tx
    rw [AList.lookup_insert, AList.lookup_insert]
  | Remove =>
    unfold DatabaseStore.apply_overlay_mutation_tx DatabaseStore.remove_overlay_tx
    rw [AList.lookup_erase, AList.lookup_erase]
  | Keep => exact hentry

private theorem lookup_apply_again (mutation : OverlayMutation) :
    ((store.apply_overlay_mutation_tx row mutation).apply_overlay_mutation_tx row mutation).message_overlay.lookup row =
      (store.apply_overlay_mutation_tx row mutation).message_overlay.lookup row := by
  cases mutation with
  | Upsert record =>
    unfold DatabaseStore.apply_overlay_mutation_tx DatabaseStore.upsert_overlay_tx
    by_cases hid : row = record.id
    · rw [hid, AList.lookup_insert, AList.lookup_insert]
    · rw [AList.lookup_insert_ne hid]
  | Tombstone =>
    unfold DatabaseStore.apply_overlay_mutation_tx DatabaseStore.tombstone_overlay_tx
    rw [AList.lookup_insert, AList.lookup_insert]
  | Remove =>
    unfold DatabaseStore.apply_overlay_mutation_tx DatabaseStore.remove_overlay_tx
    rw [AList.lookup_erase, AList.lookup_erase]
  | Keep => rfl

/-- A derived row has the entry its fold gives. -/
theorem foldedAt_of_derive {diff : DeriveDiff}
    (hderive : store.derive_overlay row (fun snapshot => fold_overlay_row snapshot row) = .ok (diff, after)) :
    FoldedAt after row := by
  unfold DatabaseStore.derive_overlay at hderive
  obtain ⟨mutation, hfold, hresult⟩ := effects.except_bind_eq_ok_iff.mp hderive
  cases hresult
  have hinputs : store.apply_overlay_mutation_tx row mutation =
      { store with message_overlay := (store.apply_overlay_mutation_tx row mutation).message_overlay } := by
    cases mutation <;> rfl
  have hsnapshot : (store.apply_overlay_mutation_tx row mutation).snapshot row =
      { store.snapshot row with overlay := (store.apply_overlay_mutation_tx row mutation).read_overlay_on row } := by
    rw [hinputs]
    rfl
  have hremoved : mutation = .Remove → (store.apply_overlay_mutation_tx row mutation).read_overlay_on row = none := by
    rintro rfl
    apply read_overlay_on_eq_none_iff.mpr
    exact AList.lookup_erase _ store.message_overlay
  have hagain := @fold_overlay_row_again (store.snapshot row)
    ((store.apply_overlay_mutation_tx row mutation).snapshot row) row mutation
  rw [hsnapshot] at hagain
  obtain hsame | ⟨rfl, hkeep⟩ := hagain rfl rfl rfl rfl hremoved (fun hkeep => by rw [hkeep]; rfl) hfold
  · refine ⟨mutation, ?_, lookup_apply_again mutation⟩
    rw [hsnapshot]
    exact hsame
  · refine ⟨.Keep, ?_, rfl⟩
    rw [hsnapshot]
    exact hkeep

/-- What derivations of other rows write leaves a row's fold alone. -/
theorem FoldedAt.of_entry (hfolded : FoldedAt store row)
    (hinputs : after = { store with message_overlay := after.message_overlay })
    (hentry : after.message_overlay.lookup row = store.message_overlay.lookup row) : FoldedAt after row := by
  obtain ⟨mutation, hfold, happly⟩ := hfolded
  refine ⟨mutation, ?_, ?_⟩
  · rw [← hfold]
    have hoverlay : after.read_overlay_on row = store.read_overlay_on row := by
      unfold DatabaseStore.read_overlay_on
      rw [hentry]
    apply fold_overlay_row_congr
    · rw [hinputs]
      rfl
    · exact hoverlay
    · rw [hinputs]
      rfl
    · rw [hinputs]
      rfl
    · rw [hinputs]
      rfl
  · rw [lookup_apply_congr hentry, happly, hentry]

/-- A transaction that derives some rows leaves each with the entry its fold gives. -/
theorem folded_of_deriveAll {rows : List MessageId} {diffs : List DeriveDiff}
    (hderive : DatabaseStore.deriveAll (fun row_id snapshot => fold_overlay_row snapshot row_id) rows store =
      .ok (diffs, after)) : Rederived rows store after ∧ ∀ row ∈ rows, FoldedAt after row := by
  induction rows generalizing store diffs with
  | nil =>
    cases hderive
    exact ⟨Rederived.refl _, fun _ hrow => absurd hrow List.not_mem_nil⟩
  | cons row rest ih =>
    unfold DatabaseStore.deriveAll at hderive
    obtain ⟨⟨diff, middle⟩, hhead, hrest⟩ := effects.except_bind_eq_ok_iff.mp hderive
    obtain ⟨⟨later, final⟩, htail, hresult⟩ := effects.except_bind_eq_ok_iff.mp hrest
    cases hresult
    obtain ⟨hrederived, hfolded⟩ := ih htail
    have hrefresh : (refresh_message_overlay row).run store = .ok diff middle := by
      unfold refresh_message_overlay
      rw [run_transaction, hhead]
    refine ⟨(rederived_of_refresh hrefresh).append hrederived, fun other hother => ?_⟩
    by_cases hlater : other ∈ rest
    · exact hfolded other hlater
    · obtain rfl := (List.mem_cons.mp hother).resolve_right hlater
      exact (foldedAt_of_derive hhead).of_entry hrederived.inputs (hrederived.elsewhere other hlater)

end Folded

/-- What one retirement leaves: the operation is out of the log, and each row it
    was to derive has the entry that the fold of the remaining log gives. -/
structure Retired (op_id : OperationId) (touched : List MessageId) (store after : DatabaseStore) : Prop where
  outbox : after.outbox = store.outbox.remove_operation op_id
  rederived : Rederived touched { store with outbox := store.outbox.remove_operation op_id } after
  folded : ∀ row ∈ touched, FoldedAt after row

/-- A retirement commits as a whole, or changes nothing. -/
theorem retire_cases (op_id : OperationId) (touched : List MessageId) (store : DatabaseStore) :
    (∃ diffs after, (retire_operation op_id touched).run store = .ok diffs after ∧
        Retired op_id touched store after) ∨
      ∃ error, (retire_operation op_id touched).run store = .error error store := by
  unfold retire_operation
  rw [run_transaction]
  cases hretire : store.remove_op_and_derive op_id touched fun row_id snapshot => fold_overlay_row snapshot row_id with
  | error error => exact Or.inr ⟨.Store error, rfl⟩
  | ok result =>
    obtain ⟨diffs, after⟩ := result
    obtain ⟨hrederived, hfolded⟩ := folded_of_deriveAll hretire
    have houtbox : after.outbox = store.outbox.remove_operation op_id := by
      rw [hrederived.inputs]
    exact Or.inl ⟨diffs, after, rfl, houtbox, hrederived, hfolded⟩

end posthaste.service
