import Posthaste.Service.Mutation

open posthaste.model posthaste.replica posthaste.store

namespace posthaste.service

/-- Replay(log, base) of one row: what it shows when nothing else decides. -/
def replayRecord (snapshot : DeriveSnapshot) (message_id : MessageId) : Except StoreError (Option MessageRecord) :=
  match foldEntityOps snapshot message_id { state := snapshot.base, discarded_by_draft_op := false }
    (entityOps (rowTouches snapshot message_id)) with
  | .error error => .error (to_store error)
  | .ok { state := none, .. } => .ok none
  | .ok { state := some record, .. } => (project_record record (messageOps (rowTouches snapshot message_id))).mapError to_store

section Fold

variable {snapshot other : DeriveSnapshot} {message_id : MessageId}

private theorem foldEntityOps_congr (hdrafts : other.drafts_mailbox = snapshot.drafts_mailbox)
    (hsent : other.sent_mailbox = snapshot.sent_mailbox) (fold : EntityFold)
    (operations : List (Operation × EntityFoldRole)) :
    foldEntityOps other message_id fold operations = foldEntityOps snapshot message_id fold operations := by
  induction operations generalizing fold with
  | nil => rfl
  | cons entry rest ih =>
    obtain ⟨operation, role⟩ := entry
    simp only [foldEntityOps, foldEntityOp, hdrafts, hsent, ih]

/-- The replay of a row reads its base, its touches and the role mailboxes, and nothing else. -/
theorem replayRecord_congr (hbase : other.base = snapshot.base)
    (htouches : rowTouches other message_id = rowTouches snapshot message_id)
    (hdrafts : other.drafts_mailbox = snapshot.drafts_mailbox) (hsent : other.sent_mailbox = snapshot.sent_mailbox) :
    replayRecord other message_id = replayRecord snapshot message_id := by
  unfold replayRecord
  rw [htouches, hbase, foldEntityOps_congr hdrafts hsent]

/-- The fold of a row reads in addition the row's overlay entry. -/
theorem fold_overlay_row_congr (hbase : other.base = snapshot.base) (hoverlay : other.overlay = snapshot.overlay)
    (htouches : rowTouches other message_id = rowTouches snapshot message_id)
    (hdrafts : other.drafts_mailbox = snapshot.drafts_mailbox) (hsent : other.sent_mailbox = snapshot.sent_mailbox) :
    fold_overlay_row other message_id = fold_overlay_row snapshot message_id := by
  unfold fold_overlay_row
  simp only [htouches, hbase, hoverlay, foldEntityOps_congr hdrafts hsent]

/-- Every entity effect leaves the row's state under the row's own id. -/
private theorem id_of_foldEntityOp {fold after : EntityFold} {operation : Operation} {role : EntityFoldRole}
    (hid : ∀ record, fold.state = some record → record.id = message_id)
    (hfold : foldEntityOp snapshot message_id fold operation role = .ok after) :
    ∀ record, after.state = some record → record.id = message_id := by
  unfold foldEntityOp at hfold
  rw [effects.except_bind_eq_ok_iff] at hfold
  obtain ⟨effect, _, hfold⟩ := hfold
  intro record hrecord
  split at hfold
  · cases hfold
    cases hrecord
    rfl
  · cases hfold
    cases hrecord
  · split_ifs at hfold
    · cases hfold
      exact hid record hrecord
    · cases hfold
      cases hrecord
      rfl
  · split_ifs at hfold
    · cases hfold
      cases hrecord
      rfl
    · cases hfold
      cases hrecord
  · cases hfold
    exact hid record hrecord

theorem id_of_foldEntityOps {fold after : EntityFold} {operations : List (Operation × EntityFoldRole)}
    (hid : ∀ record, fold.state = some record → record.id = message_id)
    (hfold : foldEntityOps snapshot message_id fold operations = .ok after) :
    ∀ record, after.state = some record → record.id = message_id := by
  induction operations generalizing fold with
  | nil =>
    cases hfold
    exact hid
  | cons entry rest ih =>
    obtain ⟨operation, role⟩ := entry
    rw [foldEntityOps, effects.except_bind_eq_ok_iff] at hfold
    obtain ⟨middle, hhead, hrest⟩ := hfold
    exact ih (id_of_foldEntityOp hid hhead) hrest

/-- A fold that ends without a state although no operation discarded it had no state to begin with. -/
private theorem state_of_foldEntityOp {fold after : EntityFold} {operation : Operation} {role : EntityFoldRole}
    (hbase : fold.state = none → fold.discarded_by_draft_op = false → snapshot.base = none)
    (hfold : foldEntityOp snapshot message_id fold operation role = .ok after) :
    after.state = none → after.discarded_by_draft_op = false → snapshot.base = none := by
  unfold foldEntityOp at hfold
  rw [effects.except_bind_eq_ok_iff] at hfold
  obtain ⟨effect, _, hfold⟩ := hfold
  intro hstate hdiscarded
  split at hfold
  · cases hfold
    cases hstate
  · cases hfold
    cases hdiscarded
  · split_ifs at hfold
    · cases hfold
      exact hbase hstate hdiscarded
    · cases hfold
      cases hstate
  · split_ifs at hfold
    · cases hfold
      cases hstate
    · cases hfold
      cases hdiscarded
  · cases hfold
    exact hbase hstate hdiscarded

private theorem state_of_foldEntityOps {fold after : EntityFold} {operations : List (Operation × EntityFoldRole)}
    (hbase : fold.state = none → fold.discarded_by_draft_op = false → snapshot.base = none)
    (hfold : foldEntityOps snapshot message_id fold operations = .ok after) :
    after.state = none → after.discarded_by_draft_op = false → snapshot.base = none := by
  induction operations generalizing fold with
  | nil =>
    cases hfold
    exact hbase
  | cons entry rest ih =>
    obtain ⟨operation, role⟩ := entry
    rw [foldEntityOps, effects.except_bind_eq_ok_iff] at hfold
    obtain ⟨middle, hhead, hrest⟩ := hfold
    exact ih (state_of_foldEntityOp hbase hhead) hrest

private theorem rowTouches_eq_nil_iff {touches : List (Operation × OpRowRole)} :
    (messageOps touches).isEmpty && (entityOps touches).isEmpty ↔ touches = [] := by
  cases touches with
  | nil => simp [messageOps, entityOps]
  | cons touch rest =>
    obtain ⟨operation, role⟩ := touch
    cases role <;> simp [messageOps, entityOps]

/-- A row no replayable operation touches replays to its base. -/
theorem replayRecord_of_untouched (htouches : rowTouches snapshot message_id = []) :
    replayRecord snapshot message_id = .ok snapshot.base := by
  unfold replayRecord
  rw [htouches]
  simp only [entityOps, messageOps, List.filterMap_nil, foldEntityOps]
  cases snapshot.base with
  | none => rfl
  | some record => rfl

/-- What a fold decision leaves the row showing. -/
def Shows (snapshot : DeriveSnapshot) (message_id : MessageId) (replayed : Option MessageRecord) :
    OverlayMutation → Prop
  | .Upsert record => replayed = some record ∧ record.id = message_id
  | .Tombstone => replayed = none
  | .Remove => replayed = snapshot.base
  | .Keep => replayed = snapshot.base ∧ snapshot.overlay = none

/-- The one fold decision that consults the previous entry: an untouched row
    keeps its tombstone while base holds the message. -/
def KeepsTombstone (snapshot : DeriveSnapshot) (message_id : MessageId) : Prop :=
  rowTouches snapshot message_id = [] ∧ snapshot.overlay = some none ∧ snapshot.base.isSome

private theorem id_of_project_record {record folded : MessageRecord} {operations : List Operation}
    (hproject : project_record record operations = .ok (some folded)) : folded.id = record.id := by
  obtain ⟨assertions, _, hfolded⟩ := message_assertions_of_project hproject
  unfold withOutcome at hfolded
  split at hfolded
  · cases hfolded
  · cases hfolded
    rfl

/-- Every other decision shows the replay. -/
theorem fold_overlay_row_cases {mutation : OverlayMutation}
    (hid : ∀ record, snapshot.base = some record → record.id = message_id)
    (hfold : fold_overlay_row snapshot message_id = .ok mutation) :
    KeepsTombstone snapshot message_id ∧ mutation = .Keep ∨
      ¬ KeepsTombstone snapshot message_id ∧
        ∃ replayed, replayRecord snapshot message_id = .ok replayed ∧ Shows snapshot message_id replayed mutation := by
  unfold fold_overlay_row at hfold
  simp only [rowTouches_eq_nil_iff] at hfold
  by_cases htouches : rowTouches snapshot message_id = []
  · rw [if_pos htouches] at hfold
    cases hoverlay : snapshot.overlay with
    | none =>
      simp only [hoverlay] at hfold
      cases hfold
      refine Or.inr ⟨fun hkeeps => ?_, snapshot.base, replayRecord_of_untouched htouches, rfl, hoverlay⟩
      have hentry := hkeeps.2.1
      rw [hoverlay] at hentry
      cases hentry
    | some entry =>
      cases entry with
      | some record =>
        simp only [hoverlay] at hfold
        cases hfold
        refine Or.inr ⟨fun hkeeps => ?_, snapshot.base, replayRecord_of_untouched htouches, rfl⟩
        have hentry := hkeeps.2.1
        rw [hoverlay] at hentry
        cases hentry
      | none =>
        simp only [hoverlay] at hfold
        split_ifs at hfold with hbase
        · cases hfold
          exact Or.inl ⟨⟨htouches, hoverlay, hbase⟩, rfl⟩
        · cases hfold
          exact Or.inr ⟨fun hkeeps => hbase hkeeps.2.2, snapshot.base, replayRecord_of_untouched htouches, rfl⟩
  · rw [if_neg htouches] at hfold
    refine Or.inr ⟨fun hkeeps => htouches hkeeps.1, ?_⟩
    unfold replayRecord
    cases hops : foldEntityOps snapshot message_id { state := snapshot.base, discarded_by_draft_op := false }
      (entityOps (rowTouches snapshot message_id)) with
    | error error =>
      simp only [hops] at hfold
      cases hfold
    | ok fold =>
      have hstateId := id_of_foldEntityOps (fun record hrecord => hid record hrecord) hops
      have hstateBase := state_of_foldEntityOps (fun hstate _ => hstate) hops
      obtain ⟨state, discarded⟩ := fold
      simp only [hops] at hfold
      cases state with
      | some record =>
        simp only at hfold ⊢
        cases hproject : project_record record (messageOps (rowTouches snapshot message_id)) with
        | error error =>
          simp only [hproject] at hfold
          cases hfold
        | ok replayed =>
          cases replayed with
          | some folded =>
            simp only [hproject] at hfold
            cases hfold
            exact ⟨some folded, rfl, rfl, (id_of_project_record hproject).trans (hstateId record rfl)⟩
          | none =>
            simp only [hproject] at hfold
            cases hfold
            exact ⟨none, rfl, rfl⟩
      | none =>
        refine ⟨none, rfl, ?_⟩
        cases discarded with
        | true =>
          simp only at hfold
          split_ifs at hfold with hbase
          · cases hfold
            rfl
          · cases hfold
            exact (Option.not_isSome_iff_eq_none.mp hbase).symm
        | false =>
          have hbase : snapshot.base = none := hstateBase rfl rfl
          simp only at hfold
          split_ifs at hfold with hdestroy hoverlay
          · cases hfold
            rfl
          · cases hfold
            exact hbase.symm
          · cases hfold
            exact ⟨hbase.symm, Option.not_isSome_iff_eq_none.mp hoverlay⟩

/-- Folding a row again, over the entry the fold left, decides the same; a removed
    entry stays removed. -/
theorem fold_overlay_row_again {mutation : OverlayMutation} (hbase : other.base = snapshot.base)
    (htouches : rowTouches other message_id = rowTouches snapshot message_id)
    (hdrafts : other.drafts_mailbox = snapshot.drafts_mailbox) (hsent : other.sent_mailbox = snapshot.sent_mailbox)
    (hremoved : mutation = .Remove → other.overlay = none) (hkept : mutation = .Keep → other.overlay = snapshot.overlay)
    (hfold : fold_overlay_row snapshot message_id = .ok mutation) :
    fold_overlay_row other message_id = .ok mutation ∨
      mutation = .Remove ∧ fold_overlay_row other message_id = .ok .Keep := by
  unfold fold_overlay_row at hfold ⊢
  simp only [rowTouches_eq_nil_iff, htouches, hbase, foldEntityOps_congr hdrafts hsent] at hfold ⊢
  by_cases htouched : rowTouches snapshot message_id = []
  · rw [if_pos htouched] at hfold
    simp only [if_pos htouched]
    cases hentry : snapshot.overlay with
    | none =>
      simp only [hentry] at hfold
      cases hfold
      rw [hkept rfl, hentry]
      exact Or.inl rfl
    | some entry =>
      cases entry with
      | none =>
        simp only [hentry] at hfold
        by_cases hpresent : snapshot.base.isSome = true
        · rw [if_pos hpresent] at hfold
          cases hfold
          rw [hkept rfl, hentry]
          exact Or.inl (if_pos hpresent)
        · rw [if_neg hpresent] at hfold
          cases hfold
          rw [hremoved rfl]
          exact Or.inr ⟨rfl, rfl⟩
      | some record =>
        simp only [hentry] at hfold
        cases hfold
        rw [hremoved rfl]
        exact Or.inr ⟨rfl, rfl⟩
  · rw [if_neg htouched] at hfold
    simp only [if_neg htouched]
    cases hops : foldEntityOps snapshot message_id { state := snapshot.base, discarded_by_draft_op := false }
      (entityOps (rowTouches snapshot message_id)) with
    | error error =>
      simp only [hops] at hfold
      cases hfold
    | ok fold =>
      obtain ⟨state, discarded⟩ := fold
      simp only [hops] at hfold
      cases state with
      | some record => exact Or.inl hfold
      | none =>
        cases discarded with
        | true => exact Or.inl hfold
        | false =>
          simp only at hfold ⊢
          split_ifs at hfold with hdestroy hentry
          · exact Or.inl ((if_pos hdestroy).trans hfold)
          · cases hfold
            refine Or.inr ⟨rfl, ?_⟩
            rw [if_neg hdestroy, hremoved rfl]
            rfl
          · cases hfold
            refine Or.inl ?_
            rw [if_neg hdestroy, hkept rfl, if_neg hentry]

/-- A row that replays folds. -/
theorem fold_overlay_row_of_replayRecord {replayed : Option MessageRecord}
    (hreplay : replayRecord snapshot message_id = .ok replayed) :
    ∃ mutation, fold_overlay_row snapshot message_id = .ok mutation := by
  unfold replayRecord at hreplay
  unfold fold_overlay_row
  simp only [rowTouches_eq_nil_iff]
  by_cases htouches : rowTouches snapshot message_id = []
  · rw [if_pos htouches]
    split
    · split_ifs
      · exact ⟨_, rfl⟩
      · exact ⟨_, rfl⟩
    · exact ⟨_, rfl⟩
    · exact ⟨_, rfl⟩
  · rw [if_neg htouches]
    split at hreplay
    · cases hreplay
    · rename_i discarded hops
      simp only [hops]
      cases discarded with
      | true =>
        simp only
        split_ifs
        · exact ⟨_, rfl⟩
        · exact ⟨_, rfl⟩
      | false =>
        simp only
        split_ifs
        · exact ⟨_, rfl⟩
        · exact ⟨_, rfl⟩
        · exact ⟨_, rfl⟩
    · rename_i record discarded hops
      simp only [hops]
      cases hproject : project_record record (messageOps (rowTouches snapshot message_id)) with
      | error error =>
        rw [hproject] at hreplay
        cases hreplay
      | ok projected => cases projected <;> exact ⟨_, rfl⟩

end Fold

section View

variable {store after : DatabaseStore} {message_id other : MessageId}

/-- What the row shows when its overlay entry is derived from scratch. -/
def view (store : DatabaseStore) (message_id : MessageId) : Except StoreError (Option MessageRow) :=
  (replayRecord (store.snapshot message_id) message_id).map (Option.map MessageRow.of_record)

/-- The overlay hides the row although base holds it and no replayable operation touches it. -/
def LingeringTombstone (store : DatabaseStore) (message_id : MessageId) : Prop :=
  KeepsTombstone (store.snapshot message_id) message_id

/-- The effective view against its derivation from the log and base. -/
def effectivePlane : DerivedPlane DatabaseStore MessageId (Option MessageRow) where
  served := DatabaseStore.effective
  derived store message_id := (view store message_id).toOption

theorem read_overlay_on_eq_none_iff :
    store.read_overlay_on message_id = none ↔ store.message_overlay.lookup message_id = none := by
  unfold DatabaseStore.read_overlay_on
  split <;> simp_all

theorem read_overlay_on_eq_tombstone_iff :
    store.read_overlay_on message_id = some none ↔ store.message_overlay.lookup message_id = some .tombstone := by
  unfold DatabaseStore.read_overlay_on
  split <;> simp_all

theorem lingeringTombstone_iff :
    LingeringTombstone store message_id ↔
      rowTouches (store.snapshot message_id) message_id = [] ∧
        store.message_overlay.lookup message_id = some .tombstone ∧ (store.message.lookup message_id).isSome := by
  unfold LingeringTombstone KeepsTombstone
  rw [show (store.snapshot message_id).overlay = store.read_overlay_on message_id from rfl,
    read_overlay_on_eq_tombstone_iff]
  simp [DatabaseStore.snapshot, DatabaseStore.read_base_on]

theorem view_of_untouched (htouches : rowTouches (store.snapshot message_id) message_id = []) :
    view store message_id = .ok (store.message.lookup message_id) := by
  unfold view
  rw [replayRecord_of_untouched htouches]
  simp only [DatabaseStore.snapshot, DatabaseStore.read_base_on, Except.map, Option.map_map]
  congr 1
  cases store.message.lookup message_id with
  | none => rfl
  | some row => simp [MessageRow.of_record_record]

theorem syncedAt_iff :
    effectivePlane.SyncedAt store message_id ↔ view store message_id = .ok (store.effective message_id) := by
  unfold DerivedPlane.SyncedAt effectivePlane
  cases hview : view store message_id <;> simp [Except.toOption, hview]

/-- A lingering tombstone hides a row whose replay shows it. -/
theorem not_syncedAt_of_lingering (hlingering : LingeringTombstone store message_id) :
    ¬ effectivePlane.SyncedAt store message_id := by
  obtain ⟨htouches, hentry, hbase⟩ := lingeringTombstone_iff.mp hlingering
  rw [syncedAt_iff, view_of_untouched htouches]
  intro hsynced
  simp only [DatabaseStore.effective, hentry, Except.ok.injEq] at hsynced
  rw [hsynced] at hbase
  cases hbase

/-- The replay of a row reads its base row, its touches and the role mailboxes. -/
theorem view_congr (hbase : after.message.lookup message_id = store.message.lookup message_id)
    (htouches : rowTouches (after.snapshot message_id) message_id = rowTouches (store.snapshot message_id) message_id)
    (hmailbox : after.mailbox = store.mailbox) : view after message_id = view store message_id := by
  unfold view
  rw [replayRecord_congr ?_ htouches]
  · simp only [DatabaseStore.snapshot, DatabaseStore.read_mailbox_id_by_role_on, hmailbox]
  · simp only [DatabaseStore.snapshot, DatabaseStore.read_mailbox_id_by_role_on, hmailbox]
  · simp only [DatabaseStore.snapshot, DatabaseStore.read_base_on, hbase]

/-- What successful derivations of some rows did to the store: they wrote the
    overlay only, at those rows only, and left each in sync or lingering. -/
structure Rederived (rows : List MessageId) (store after : DatabaseStore) : Prop where
  inputs : after = { store with message_overlay := after.message_overlay }
  elsewhere : ∀ other, other ∉ rows → after.message_overlay.lookup other = store.message_overlay.lookup other
  lingering : ∀ row ∈ rows, LingeringTombstone store row →
    after.message_overlay.lookup row = store.message_overlay.lookup row
  synced : ∀ row ∈ rows, ¬ LingeringTombstone store row → effectivePlane.SyncedAt after row

theorem view_of_overlay {store after : DatabaseStore}
    (hinputs : after = { store with message_overlay := after.message_overlay }) (message_id : MessageId) :
    view after message_id = view store message_id := by
  rw [hinputs]
  exact view_congr rfl rfl rfl

theorem untouched_of_entry (hinputs : after = { store with message_overlay := after.message_overlay })
    (hentry : after.message_overlay.lookup message_id = store.message_overlay.lookup message_id) :
    effectivePlane.Untouched store after message_id := by
  refine ⟨?_, ?_⟩
  · have hbase : after.message = store.message := by rw [hinputs]
    show after.effective message_id = store.effective message_id
    unfold DatabaseStore.effective
    rw [hentry, hbase]
  · show (view after message_id).toOption = (view store message_id).toOption
    rw [view_of_overlay hinputs]

theorem lingeringTombstone_congr (hinputs : after = { store with message_overlay := after.message_overlay })
    (hentry : after.message_overlay.lookup message_id = store.message_overlay.lookup message_id) :
    LingeringTombstone after message_id ↔ LingeringTombstone store message_id := by
  rw [lingeringTombstone_iff, lingeringTombstone_iff, hentry]
  rw [hinputs]
  exact Iff.rfl

theorem Rederived.refl (store : DatabaseStore) : Rederived [] store store :=
  ⟨rfl, fun _ _ => rfl, fun _ hrow => absurd hrow List.not_mem_nil, fun _ hrow => absurd hrow List.not_mem_nil⟩

theorem Rederived.untouched {rows : List MessageId} (hderived : Rederived rows store after)
    (hother : other ∉ rows) : effectivePlane.Untouched store after other :=
  untouched_of_entry hderived.inputs (hderived.elsewhere other hother)

/-- Deriving a row that is in sync keeps it in sync. -/
theorem Rederived.keeps {rows : List MessageId} (hderived : Rederived rows store after)
    (hsynced : effectivePlane.SyncedAt store other) : effectivePlane.SyncedAt after other := by
  by_cases hother : other ∈ rows
  · exact hderived.synced other hother fun hlingering => not_syncedAt_of_lingering hlingering hsynced
  · exact (hderived.untouched hother).syncedAt_iff.mpr hsynced

/-- A derived row is in sync exactly when no tombstone lingered on it. -/
theorem Rederived.syncedAt_iff_not_lingering {rows : List MessageId} (hderived : Rederived rows store after)
    (hrow : message_id ∈ rows) : effectivePlane.SyncedAt after message_id ↔ ¬ LingeringTombstone store message_id := by
  constructor
  · intro hsynced hlingering
    have hentry := hderived.lingering message_id hrow hlingering
    exact not_syncedAt_of_lingering ((lingeringTombstone_congr hderived.inputs hentry).mpr hlingering) hsynced
  · exact hderived.synced message_id hrow

theorem Rederived.append {first second : List MessageId} {store middle after : DatabaseStore}
    (hfirst : Rederived first store middle) (hsecond : Rederived second middle after) :
    Rederived (first ++ second) store after := by
  have hentry : ∀ row, LingeringTombstone store row →
      middle.message_overlay.lookup row = store.message_overlay.lookup row := by
    intro row hlingering
    by_cases hrow : row ∈ first
    · exact hfirst.lingering row hrow hlingering
    · exact hfirst.elsewhere row hrow
  refine ⟨?_, ?_, ?_, ?_⟩
  · rw [hsecond.inputs, hfirst.inputs]
  · intro other hother
    rw [List.mem_append, not_or] at hother
    rw [hsecond.elsewhere other hother.2, hfirst.elsewhere other hother.1]
  · intro row _ hlingering
    have hmiddle : LingeringTombstone middle row :=
      (lingeringTombstone_congr hfirst.inputs (hentry row hlingering)).mpr hlingering
    by_cases hrow : row ∈ second
    · rw [hsecond.lingering row hrow hmiddle, hentry row hlingering]
    · rw [hsecond.elsewhere row hrow, hentry row hlingering]
  · intro row hrow hlingering
    by_cases hearly : row ∈ first
    · exact hsecond.keeps (hfirst.synced row hearly hlingering)
    · have hlate : row ∈ second := (List.mem_append.mp hrow).resolve_left hearly
      refine hsecond.synced row hlate fun hmiddle => hlingering ?_
      exact (lingeringTombstone_congr hfirst.inputs (hfirst.elsewhere row hearly)).mp hmiddle

private theorem base_of_shows {replayed : Option MessageRecord}
    (hreplayed : replayed = (store.snapshot message_id).base) :
    replayed.map MessageRow.of_record = store.message.lookup message_id := by
  rw [hreplayed]
  simp only [DatabaseStore.snapshot, DatabaseStore.read_base_on, Option.map_map]
  cases store.message.lookup message_id with
  | none => rfl
  | some row => simp [MessageRow.of_record_record]

/-- Applying a decision that shows the replay makes the row serve it. -/
private theorem effective_of_shows {replayed : Option MessageRecord} {mutation : OverlayMutation}
    (hshows : Shows (store.snapshot message_id) message_id replayed mutation) :
    (store.apply_overlay_mutation_tx message_id mutation).effective message_id =
      replayed.map MessageRow.of_record := by
  cases mutation with
  | Upsert record =>
    obtain ⟨rfl, rfl⟩ := hshows
    simp [DatabaseStore.apply_overlay_mutation_tx, DatabaseStore.upsert_overlay_tx, DatabaseStore.effective]
  | Tombstone =>
    have hreplayed : replayed = none := hshows
    simp [hreplayed, DatabaseStore.apply_overlay_mutation_tx, DatabaseStore.tombstone_overlay_tx,
      DatabaseStore.effective]
  | Remove =>
    rw [base_of_shows hshows]
    simp [DatabaseStore.apply_overlay_mutation_tx, DatabaseStore.remove_overlay_tx, DatabaseStore.effective]
  | Keep =>
    obtain ⟨hreplayed, hentry⟩ := hshows
    have hnone : store.message_overlay.lookup message_id = none := read_overlay_on_eq_none_iff.mp hentry
    rw [base_of_shows hreplayed]
    simp only [DatabaseStore.apply_overlay_mutation_tx, DatabaseStore.effective, hnone]

private theorem inputs_of_apply (mutation : OverlayMutation) :
    store.apply_overlay_mutation_tx message_id mutation =
      { store with message_overlay := (store.apply_overlay_mutation_tx message_id mutation).message_overlay } := by
  cases mutation <;> rfl

private theorem elsewhere_of_shows {replayed : Option MessageRecord} {mutation : OverlayMutation}
    (hshows : Shows (store.snapshot message_id) message_id replayed mutation) (hother : other ≠ message_id) :
    (store.apply_overlay_mutation_tx message_id mutation).message_overlay.lookup other =
      store.message_overlay.lookup other := by
  cases mutation with
  | Upsert record =>
    have hne : other ≠ record.id := fun heq => hother (heq.trans hshows.2)
    exact AList.lookup_insert_ne hne
  | Tombstone => exact AList.lookup_insert_ne hother
  | Remove => exact AList.lookup_erase_ne hother
  | Keep => rfl

theorem id_of_snapshot {record : MessageRecord} (hbase : (store.snapshot message_id).base = some record) :
    record.id = message_id := by
  simp only [DatabaseStore.snapshot, DatabaseStore.read_base_on, Option.map_eq_some_iff] at hbase
  obtain ⟨row, _, rfl⟩ := hbase
  rfl

/-- A derivation applies what the fold decides. -/
theorem run_refresh_eq_ok_iff {diff : DeriveDiff} :
    (refresh_message_overlay message_id).run store = .ok diff after ↔
      ∃ mutation, fold_overlay_row (store.snapshot message_id) message_id = .ok mutation ∧
        DatabaseStore.mutationDiff (store.snapshot message_id) mutation = diff ∧
        store.apply_overlay_mutation_tx message_id mutation = after := by
  unfold refresh_message_overlay
  rw [MailService.run_transaction]
  unfold DatabaseStore.derive_overlay
  cases hfold : fold_overlay_row (store.snapshot message_id) message_id with
  | error error =>
    simp only [hfold]
    constructor
    · intro hrun
      cases hrun
    · rintro ⟨_, hmutation, _⟩
      cases hmutation
  | ok mutation =>
    simp only [hfold]
    constructor
    · intro hrun
      cases hrun
      exact ⟨mutation, rfl, rfl, rfl⟩
    · rintro ⟨_, hmutation, rfl, rfl⟩
      cases hmutation
      rfl

/-- A row whose log replays is re-derived. -/
theorem refresh_of_view {row : Option MessageRow} (hview : view store message_id = .ok row) :
    ∃ diff after, (refresh_message_overlay message_id).run store = .ok diff after ∧
      Rederived [message_id] store after := by
  have hreplay : ∃ replayed, replayRecord (store.snapshot message_id) message_id = .ok replayed := by
    unfold view at hview
    obtain ⟨replayed, hreplayed, _⟩ := effects.except_map_eq_ok_iff.mp hview
    exact ⟨replayed, hreplayed⟩
  obtain ⟨replayed, hreplayed⟩ := hreplay
  obtain ⟨mutation, hfold⟩ := fold_overlay_row_of_replayRecord hreplayed
  have hrun : (refresh_message_overlay message_id).run store =
      .ok (DatabaseStore.mutationDiff (store.snapshot message_id) mutation)
        (store.apply_overlay_mutation_tx message_id mutation) := by
    unfold refresh_message_overlay
    rw [MailService.run_transaction]
    unfold DatabaseStore.derive_overlay
    simp only [hfold, effects.except_bind_ok]
    rfl
  refine ⟨_, _, hrun, ?_⟩
  obtain ⟨hkeeps, rfl⟩ | ⟨hkeeps, shown, hshown, hshows⟩ :=
    fold_overlay_row_cases (fun _ hbase => id_of_snapshot hbase) hfold
  · refine ⟨rfl, fun _ _ => rfl, fun _ _ _ => rfl, fun row hrow hnot => ?_⟩
    rw [List.mem_singleton.mp hrow] at hnot
    exact absurd hkeeps hnot
  · refine ⟨inputs_of_apply mutation, fun other hother => ?_, fun row hrow hlingering => ?_, fun row hrow _ => ?_⟩
    · exact elsewhere_of_shows hshows fun heq => hother (List.mem_singleton.mpr heq)
    · rw [List.mem_singleton.mp hrow] at hlingering
      exact absurd hlingering hkeeps
    · rw [List.mem_singleton.mp hrow, syncedAt_iff, view_of_overlay (inputs_of_apply mutation),
        effective_of_shows hshows]
      unfold view
      rw [hshown]
      rfl

/-- On any other row the derivation fails and changes nothing. -/
theorem refresh_of_view_error {error : StoreError} (hview : view store message_id = .error error) :
    ∃ raised, (refresh_message_overlay message_id).run store = .error raised store := by
  unfold refresh_message_overlay
  rw [MailService.run_transaction]
  unfold DatabaseStore.derive_overlay
  cases hfold : fold_overlay_row (store.snapshot message_id) message_id with
  | error raised =>
    refine ⟨.Store raised, ?_⟩
    simp only [hfold]
    rfl
  | ok mutation =>
    have hreplay : ∃ replayed, replayRecord (store.snapshot message_id) message_id = .ok replayed := by
      obtain ⟨hkeeps, _⟩ | ⟨_, replayed, hreplayed, _⟩ :=
        fold_overlay_row_cases (fun _ hbase => id_of_snapshot hbase) hfold
      · exact ⟨_, replayRecord_of_untouched hkeeps.1⟩
      · exact ⟨replayed, hreplayed⟩
    obtain ⟨replayed, hreplayed⟩ := hreplay
    unfold view at hview
    rw [hreplayed] at hview
    cases hview

theorem refresh_cases (store : DatabaseStore) (message_id : MessageId) :
    (∃ shown diff after, view store message_id = .ok shown ∧
        (refresh_message_overlay message_id).run store = .ok diff after ∧ Rederived [message_id] store after) ∨
      ∃ error raised, view store message_id = .error error ∧
        (refresh_message_overlay message_id).run store = .error raised store := by
  cases hview : view store message_id with
  | ok shown =>
    obtain ⟨diff, after, hrun, hderived⟩ := refresh_of_view hview
    exact Or.inl ⟨shown, diff, after, rfl, hrun, hderived⟩
  | error error =>
    obtain ⟨raised, hrun⟩ := refresh_of_view_error hview
    exact Or.inr ⟨error, raised, rfl, hrun⟩

theorem rederived_of_refresh {diff : DeriveDiff}
    (hrun : (refresh_message_overlay message_id).run store = .ok diff after) : Rederived [message_id] store after := by
  obtain ⟨_, _, found, _, hfound, hderived⟩ | ⟨_, _, _, hfound⟩ := refresh_cases store message_id
  · rw [hrun] at hfound
    cases hfound
    exact hderived
  · rw [hrun] at hfound
    cases hfound

theorem rederived_of_refreshAll {rows : List MessageId} (hrun : (refreshAll rows).run store = .ok () after) :
    Rederived rows store after := by
  induction rows generalizing store with
  | nil =>
    cases hrun
    exact Rederived.refl _
  | cons row rest ih =>
    rw [refreshAll, effects.run_bind_eq_ok_iff] at hrun
    obtain ⟨diff, middle, hhead, hrest⟩ := hrun
    exact (rederived_of_refresh hhead).append (ih hrest)

/-- A run of derivations succeeds exactly as far as the rows replay. -/
theorem refreshAll_of_view {rows : List MessageId}
    (hviews : ∀ row ∈ rows, ∃ shown, view store row = .ok shown) :
    ∃ after, (refreshAll rows).run store = .ok () after ∧ Rederived rows store after := by
  induction rows generalizing store with
  | nil => exact ⟨store, rfl, Rederived.refl store⟩
  | cons row rest ih =>
    obtain ⟨shown, hshown⟩ := hviews row List.mem_cons_self
    obtain ⟨diff, middle, hrun, hhead⟩ := refresh_of_view hshown
    have hrest : ∀ later ∈ rest, ∃ shown, view middle later = .ok shown := by
      intro later hlater
      rw [view_of_overlay hhead.inputs]
      exact hviews later (List.mem_cons_of_mem _ hlater)
    obtain ⟨after, hafter, htail⟩ := ih hrest
    refine ⟨after, ?_, hhead.append htail⟩
    rw [refreshAll, effects.run_bind_of_ok hrun, hafter]

/-- A call that only derives rows, even where it fails. -/
def OnlyDerives {α : Type} (call : MailService α) : Prop :=
  ∀ store, ∃ rows, Rederived rows store (effects.final (call.run store))

theorem onlyDerives_pure {α : Type} (value : α) : OnlyDerives (pure value : MailService α) :=
  fun store => ⟨[], Rederived.refl store⟩

theorem onlyDerives_refresh (message_id : MessageId) : OnlyDerives (refresh_message_overlay message_id) := by
  intro store
  obtain ⟨_, _, after, _, hrun, hderived⟩ | ⟨_, _, _, hrun⟩ := refresh_cases store message_id
  · rw [hrun]
    exact ⟨[message_id], hderived⟩
  · rw [hrun]
    exact ⟨[], Rederived.refl store⟩

theorem OnlyDerives.bind {α β : Type} {first : MailService α} {next : α → MailService β}
    (hfirst : OnlyDerives first) (hnext : ∀ value, OnlyDerives (next value)) : OnlyDerives (first >>= next) := by
  intro store
  obtain ⟨rows, hhead⟩ := hfirst store
  cases hrun : first.run store with
  | error error middle =>
    rw [hrun] at hhead
    rw [effects.run_bind_of_error hrun]
    exact ⟨rows, hhead⟩
  | ok value middle =>
    rw [hrun] at hhead
    rw [effects.run_bind_of_ok hrun]
    obtain ⟨later, htail⟩ := hnext value middle
    exact ⟨rows ++ later, hhead.append htail⟩

theorem onlyDerives_refreshAll (rows : List MessageId) : OnlyDerives (refreshAll rows) := by
  induction rows with
  | nil => exact onlyDerives_pure ()
  | cons row rest ih => exact (onlyDerives_refresh row).bind fun _ => ih

end View

end posthaste.service
