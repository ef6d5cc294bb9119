import Posthaste.RevLog.Discipline

namespace posthaste.undo_redo

/-- The steps in force of a list of logged ones: those that no forward action dropped. -/
def kept (dropped stepIds : List String) : List String := stepIds.filter (· ∉ dropped)

/-- The cursor and the history agree: what was taken back is the redo tail, and the steps up to the cursor that were
    not dropped are the latest actions in force. -/
structure Standing (stepIds dropped : List String) (history : UndoHistory String) (cursor : RevCursor) : Prop where
  located : ∃ below, Located stepIds below cursor ∧
    (kept dropped (below ++ cursor.cursor_step_id.toList)).reverse <+: history.done
  undone : history.undone = cursor.redo_tail
  redoable : ∀ step_id ∈ cursor.redo_tail, step_id ∉ dropped

section Moves

variable {stepIds dropped below : List String} {history : UndoHistory String} {cursor : RevCursor} {step_id : String}

theorem kept_snoc (hkept : step_id ∉ dropped) : kept dropped (stepIds ++ [step_id]) = kept dropped stepIds ++ [step_id] := by
  rw [kept, List.filter_append, ← kept]
  simp [hkept]

/-- Reverting the step at the cursor moves both down. -/
theorem Standing.revert (hlocated : Located stepIds below cursor)
    (hdone : (kept dropped (below ++ cursor.cursor_step_id.toList)).reverse <+: history.done)
    (hundone : history.undone = cursor.redo_tail) (hredoable : ∀ step_id ∈ cursor.redo_tail, step_id ∉ dropped)
    (hcursor : cursor.cursor_step_id = some step_id) (hkept : step_id ∉ dropped) :
    ∃ after, history.act (.revert step_id) = some after ∧
      Standing stepIds dropped after ⟨below.getLast?, step_id :: cursor.redo_tail⟩ := by
  rw [hcursor, Option.toList_some, kept_snoc hkept, List.reverse_append, List.reverse_singleton,
    List.singleton_append] at hdone
  obtain ⟨rest, hrest⟩ := hdone
  refine ⟨⟨history.done.tail, step_id :: history.undone⟩, ?_, ?_⟩
  · rw [UndoHistory.act, ← hrest]
    simp
  · have hbelow : below = below.dropLast ++ below.getLast?.toList := by
      rcases List.eq_nil_or_concat below with rfl | ⟨init, last, rfl⟩
      · rfl
      · simp
    refine ⟨⟨below.dropLast, ⟨?_, ?_⟩, ?_⟩, by rw [hundone], ?_⟩
    · rw [← hbelow, hlocated.split, hcursor, Option.toList_some, List.append_assoc, List.singleton_append]
    · intro hnone
      rw [List.getLast?_eq_none_iff] at hnone
      rw [hnone]
      rfl
    · rw [← hbelow, ← hrest]
      exact ⟨rest, rfl⟩
    · intro other hother
      rcases List.mem_cons.mp hother with rfl | hother
      · exact hkept
      · exact hredoable other hother

/-- Re-applying the head of the redo tail moves both up. -/
theorem Standing.reapply {rest : List String} (hstanding : Standing stepIds dropped history cursor)
    (htail : cursor.redo_tail = step_id :: rest) :
    ∃ after, history.act (.reapply step_id) = some after ∧ Standing stepIds dropped after ⟨some step_id, rest⟩ := by
  obtain ⟨⟨below, hlocated, hdone⟩, hundone, hredoable⟩ := hstanding
  rw [htail] at hundone hredoable
  refine ⟨⟨step_id :: history.done, rest⟩, ?_, ?_⟩
  · rw [UndoHistory.act, hundone]
    simp
  · refine ⟨⟨below ++ cursor.cursor_step_id.toList, ⟨?_, ?_⟩, ?_⟩, rfl, ?_⟩
    · rw [hlocated.split, htail, Option.toList_some, List.append_assoc _ [step_id], List.singleton_append]
    · rintro ⟨⟩
    · rw [Option.toList_some, kept_snoc (hredoable step_id List.mem_cons_self), List.reverse_append,
        List.reverse_singleton, List.singleton_append]
      obtain ⟨older, holder⟩ := hdone
      exact ⟨older, by rw [List.cons_append, holder]⟩
    · exact fun other hother => hredoable other (List.mem_cons_of_mem _ hother)

/-- A new step stands on top of the whole log. -/
theorem Standing.forward (hstanding : Standing stepIds dropped history cursor) (hunique : stepIds.Nodup)
    (hfresh : step_id ∉ stepIds) (hnew : step_id ∉ dropped) :
    Standing (stepIds ++ [step_id]) (dropped ++ cursor.redo_tail) ⟨step_id :: history.done, []⟩ ⟨some step_id, []⟩ := by
  obtain ⟨⟨below, hlocated, hdone⟩, -, hredoable⟩ := hstanding
  have hsplit := hlocated.split
  have hkept : step_id ∉ dropped ++ cursor.redo_tail := by
    rw [List.mem_append, not_or]
    refine ⟨hnew, fun hmem => hfresh ?_⟩
    rw [hsplit]
    exact List.mem_append_right _ hmem
  have hsame : kept (dropped ++ cursor.redo_tail) stepIds =
      kept dropped (below ++ cursor.cursor_step_id.toList) := by
    rw [hsplit] at hunique ⊢
    have hdisjoint := List.disjoint_of_nodup_append hunique
    rw [kept, kept, List.filter_append]
    have htail : cursor.redo_tail.filter (· ∉ dropped ++ cursor.redo_tail) = [] := by
      refine List.filter_eq_nil_iff.mpr fun other hother => ?_
      simp [hother]
    rw [htail, List.append_nil]
    refine List.filter_congr fun other hother => ?_
    have hnot : other ∉ cursor.redo_tail := fun hmem => hdisjoint hother hmem
    simp [hnot]
  refine ⟨⟨stepIds, ⟨?_, ?_⟩, ?_⟩, rfl, fun _ hmem => absurd hmem List.not_mem_nil⟩
  · rw [Option.toList_some, List.append_nil]
  · rintro ⟨⟩
  · rw [Option.toList_some, kept_snoc hkept, List.reverse_append, List.reverse_singleton, List.singleton_append, hsame]
    obtain ⟨older, holder⟩ := hdone
    exact ⟨older, by rw [List.cons_append, holder]⟩

/-- The log loses its oldest steps, none of them the cursor's or the redo tail's. -/
theorem Standing.evict {count : Nat} (hstanding : Standing stepIds dropped history cursor)
    (hspared : ∀ step_id ∈ stepIds.take count, cursor.cursor_step_id ≠ some step_id ∧ step_id ∉ cursor.redo_tail) :
    Standing (stepIds.drop count) dropped history cursor := by
  obtain ⟨⟨below, hlocated, hdone⟩, hundone, hredoable⟩ := hstanding
  have hsplit : stepIds = below ++ (cursor.cursor_step_id.toList ++ cursor.redo_tail) := by
    rw [hlocated.split, List.append_assoc]
  have hupper : (cursor.cursor_step_id.toList ++ cursor.redo_tail).drop (count - below.length) =
      cursor.cursor_step_id.toList ++ cursor.redo_tail := by
    by_cases hcount : count ≤ below.length
    · rw [Nat.sub_eq_zero_of_le hcount, List.drop_zero]
    · cases hcase : cursor.cursor_step_id.toList ++ cursor.redo_tail with
      | nil => rw [List.drop_nil]
      | cons step_id upper =>
        have hmem : step_id ∈ stepIds.take count := by
          rw [hsplit, hcase, List.take_append]
          refine List.mem_append_right _ ?_
          obtain ⟨more, hmore⟩ : ∃ more, count - below.length = more + 1 := ⟨count - below.length - 1, by omega⟩
          rw [hmore, List.take_succ_cons]
          exact List.mem_cons_self
        obtain ⟨hcursor, htail⟩ := hspared step_id hmem
        have heither : step_id ∈ cursor.cursor_step_id.toList ++ cursor.redo_tail := by
          rw [hcase]
          exact List.mem_cons_self
        rcases List.mem_append.mp heither with hmem | hmem
        · exact absurd (Option.mem_toList.mp hmem) hcursor
        · exact absurd hmem htail
  refine ⟨⟨below.drop count, ⟨?_, ?_⟩, ?_⟩, hundone, hredoable⟩
  · rw [hsplit, List.drop_append, hupper, List.append_assoc]
  · intro hnone
    rw [hlocated.bottom hnone, List.drop_nil]
  · have hbelow : below ++ cursor.cursor_step_id.toList =
        below.take count ++ (below.drop count ++ cursor.cursor_step_id.toList) := by
      rw [← List.append_assoc, List.take_append_drop]
    rw [hbelow, kept, List.filter_append, List.reverse_append, ← kept] at hdone
    exact (List.prefix_append _ _).trans hdone

end Moves

section Orderly

variable (decode : String → Option StepDiff) (state : State)

def State.Idle : Prop := ∀ call, state.calls call = none

/-- What an event may do. A new step comes under its first id while no call is under way and the log has room; an
    eviction spares the cursor and the redo tail and meets no call; calls come one at a time; a step that a forward
    action dropped is not reverted; and a call whose diff was applied writes its cursor. -/
def Orderly : Event → Prop
  | .append step_id _ _ _ _ => step_id ∈ state.tables.stepIds ∨
      HistoryAct.forward step_id ∉ state.acts ∧ state.tables.rev_log.length < MAX_REV_LOG_HISTORY ∧
        state.tables.nextSeq < 2 ^ 32 ∧ state.Idle
  | .evict max_steps => state.tables.rev_log.length ≤ max_steps ∨ state.Idle ∧
      ∀ row ∈ state.tables.evicted max_steps,
        state.tables.get_rev_cursor.cursor_step_id ≠ some row.step_id ∧
          row.step_id ∉ state.tables.get_rev_cursor.redo_tail
  | .readSteps _ _ => state.Idle
  | .apply call => ∀ plan, state.calls call = some (.planned plan) → plan.kind = .undo →
      plan.step.step_id ∉ state.dropped
  | .abandon call => ∀ plan, state.calls call ≠ some (.applied plan)
  | .readCursor _ | .write _ => True

/-- The log as undo and redo read it holds what the cursor names, and what was done to the mail is a history of
    undo and redo: every revert was of the latest action in force and every redo of the latest one taken back, none
    was reverted twice without a redo, and none that a later action dropped was reverted again. -/
structure Consistent : Prop where
  cursor_read : ∀ step_id, state.tables.get_rev_cursor.cursor_step_id = some step_id →
    step_id ∈ state.tables.rev_log_snapshot.steps.map (·.step_id)
  tail_read : ∀ step_id ∈ state.tables.get_rev_cursor.redo_tail,
    step_id ∈ state.tables.rev_log_snapshot.steps.map (·.step_id)
  disciplined : (UndoHistory.empty.replay state.acts).isSome
  redone_between : ∀ before between after step_id,
    state.acts = before ++ .revert step_id :: (between ++ .revert step_id :: after) → .reapply step_id ∈ between
  dropped_stays : ∀ before history step_id other after, UndoHistory.empty.replay before = some history →
    step_id ∈ history.undone → state.acts = before ++ .forward other :: after → .revert step_id ∉ after

/-- What the call under way, if any, means for the tables: until it has applied its diff the cursor stands as
    written, after that as it will be written. -/
def Fits (standing : RevCursor) : Option Phase → Prop
  | none => standing = state.tables.get_rev_cursor
  | some (.reading _ steps) => standing = state.tables.get_rev_cursor ∧
      steps = state.tables.fetch_rev_log none MAX_REV_LOG_HISTORY
  | some (.planned plan) => standing = state.tables.get_rev_cursor ∧
      planOf decode plan.kind state.tables.rev_log_snapshot = .ok plan
  | some (.applied plan) => standing = plan.cursor

structure Invariant : Prop where
  kept : WellKept state.tables.rev_log
  written : ∃ below, Located state.tables.stepIds below state.tables.get_rev_cursor
  standing : ∃ history standing, UndoHistory.empty.replay state.acts = some history ∧
    Standing state.tables.stepIds state.dropped history standing ∧
    ∃ call, (∀ other, other ≠ call → state.calls other = none) ∧ Fits decode state standing (state.calls call)
  distinct : (UndoHistory.forwards state.acts).Nodup
  logged : ∀ step_id ∈ state.tables.stepIds ++ state.dropped, HistoryAct.forward step_id ∈ state.acts

end Orderly

section Steps

variable {decode : String → Option StepDiff} {state after : State}

theorem Invariant.consistent (hinvariant : Invariant decode state) : Consistent state := by
  obtain ⟨hkept, ⟨below, hlocated⟩, ⟨history, standing, hreplay, -, -⟩, hdistinct, -⟩ := hinvariant
  have hread : state.tables.rev_log_snapshot.steps.map (·.step_id) = state.tables.stepIds := by
    rw [Tables.rev_log_snapshot, hkept.fetch_eq, List.map_map]
    rfl
  refine ⟨?_, ?_, by rw [hreplay]; rfl, ?_, ?_⟩
  · intro step_id hcursor
    rw [hread, hlocated.split, hcursor]
    exact List.mem_append_left _ (List.mem_append_right _ List.mem_cons_self)
  · intro step_id hmem
    rw [hread, hlocated.split]
    exact List.mem_append_right _ hmem
  · intro before between after step_id hacts
    rw [hacts] at hdistinct hreplay
    exact UndoHistory.reapplied_between hdistinct hreplay
  · intro before held step_id other after hbefore hmem hacts
    rw [hacts] at hdistinct hreplay
    exact (UndoHistory.dropped_untouched hdistinct hbefore hmem hreplay).1

theorem Invariant.start : Invariant decode State.start := by
  refine ⟨⟨List.Pairwise.nil, fun _ hmem => absurd hmem List.not_mem_nil, Nat.zero_le _, List.nodup_nil⟩,
    ⟨[], rfl, fun _ => rfl⟩, ⟨UndoHistory.empty, ⟨none, []⟩, rfl, ?_, 0, fun _ _ => rfl, rfl⟩, List.nodup_nil,
    fun _ hmem => absurd hmem List.not_mem_nil⟩
  exact ⟨⟨[], ⟨rfl, fun _ => rfl⟩, List.nil_prefix⟩, rfl, fun _ hmem => absurd hmem List.not_mem_nil⟩

theorem append_of_known {tables : Tables} {step_id message_id source_id diff created_at : String}
    (hknown : step_id ∈ tables.stepIds) :
    (tables.append_rev_log_step step_id message_id source_id diff created_at).2 = tables := by
  rw [Tables.append_rev_log_step]
  obtain ⟨row, hrow, hid⟩ := List.mem_map.mp hknown
  cases hfind : tables.rev_log.find? (·.step_id = step_id) with
  | some found => rfl
  | none =>
    have hnone := List.find?_eq_none.mp hfind row hrow
    simp [hid] at hnone

theorem append_of_new {tables : Tables} {step_id message_id source_id diff created_at : String}
    (hnew : step_id ∉ tables.stepIds) :
    (tables.append_rev_log_step step_id message_id source_id diff created_at).2 =
      ⟨tables.rev_log ++ [⟨step_id, tables.nextSeq, message_id, source_id, diff, created_at⟩],
        some ⟨some step_id, []⟩⟩ := by
  rw [Tables.append_rev_log_step]
  cases hfind : tables.rev_log.find? (·.step_id = step_id) with
  | some found =>
    have hid : found.step_id = step_id := by simpa using List.find?_some hfind
    exact absurd (List.mem_map.mpr ⟨found, List.mem_of_find?_eq_some hfind, hid⟩) hnew
  | none => rfl

theorem WellKept.append {tables : Tables} {row : RevLogRow} (hkept : WellKept tables.rev_log)
    (hseq : row.seq = tables.nextSeq) (hsmall : tables.nextSeq < 2 ^ 32)
    (hroom : tables.rev_log.length < MAX_REV_LOG_HISTORY) (hnew : row.step_id ∉ tables.stepIds) :
    WellKept (tables.rev_log ++ [row]) := by
  refine ⟨?_, ?_, ?_, ?_⟩
  · refine List.pairwise_append.mpr ⟨hkept.ascending, List.pairwise_singleton _ _, fun other hother last hlast => ?_⟩
    rw [List.mem_singleton.mp hlast, hseq]
    exact WellKept.lt_nextSeq hother
  · intro other hother
    rcases List.mem_append.mp hother with hother | hlast
    · exact hkept.small other hother
    · rw [List.mem_singleton.mp hlast, hseq]
      exact hsmall
  · rw [List.length_append, List.length_singleton]
    omega
  · rw [List.map_append, List.map_cons, List.map_nil]
    refine List.nodup_append.mpr ⟨hkept.unique, List.nodup_singleton _, fun other hother last hlast => ?_⟩
    rw [List.mem_singleton.mp hlast]
    rintro rfl
    exact hnew hother

theorem forwards_snoc {acts : List (HistoryAct String)} {step_id : String} :
    UndoHistory.forwards (acts ++ [.forward step_id]) = UndoHistory.forwards acts ++ [step_id] :=
  UndoHistory.forwards_append

/-- An idle account's history stands at the cursor as written. -/
theorem Invariant.idle (hinvariant : Invariant decode state) (hidle : state.Idle) :
    ∃ history, UndoHistory.empty.replay state.acts = some history ∧
      Standing state.tables.stepIds state.dropped history state.tables.get_rev_cursor := by
  obtain ⟨history, standing, hreplay, hstanding, call, -, hfits⟩ := hinvariant.standing
  rw [hidle call] at hfits
  rw [hfits] at hstanding
  exact ⟨history, hreplay, hstanding⟩

theorem Invariant.append {step_id message_id source_id diff created_at : String} (hinvariant : Invariant decode state)
    (horderly : Orderly state (.append step_id message_id source_id diff created_at))
    (hnext : state.next decode (.append step_id message_id source_id diff created_at) = some after) :
    Invariant decode after := by
  by_cases hknown : step_id ∈ state.tables.stepIds
  · simp only [State.next, if_pos hknown, append_of_known hknown] at hnext
    obtain rfl := Option.some.inj hnext
    exact hinvariant
  · obtain ⟨hfirst, hroom, hsmall, hidle⟩ := horderly.resolve_left hknown
    simp only [State.next, if_neg hknown, append_of_new hknown] at hnext
    obtain rfl := Option.some.inj hnext
    obtain ⟨history, hreplay, hstanding⟩ := hinvariant.idle hidle
    have hids : ∀ row : RevLogRow, row.step_id = step_id →
        (state.tables.rev_log ++ [row]).map (·.step_id) = state.tables.stepIds ++ [step_id] := by
      rintro row rfl
      rw [List.map_append]
      rfl
    have hnotDropped : step_id ∉ state.dropped := fun hmem =>
      hfirst (hinvariant.logged step_id (List.mem_append_right _ hmem))
    have hforward := hstanding.forward hinvariant.kept.unique hknown hnotDropped
    refine ⟨hinvariant.kept.append rfl hsmall hroom hknown, ⟨state.tables.stepIds, ?_, ?_⟩,
      ⟨⟨step_id :: history.done, []⟩, ⟨some step_id, []⟩, ?_, ?_, 0, ?_, ?_⟩, ?_, ?_⟩
    · rw [Tables.stepIds, hids _ rfl]
      exact (List.append_nil _).symm
    · rintro ⟨⟩
    · rw [UndoHistory.replay_snoc hreplay]
      rfl
    · rw [Tables.stepIds, hids _ rfl]
      exact hforward
    · exact fun other _ => hidle other
    · simp only [hidle 0]
      rfl
    · rw [forwards_snoc]
      refine List.nodup_append.mpr ⟨hinvariant.distinct, List.nodup_singleton _, fun other hother last hlast => ?_⟩
      rw [List.mem_singleton.mp hlast]
      rintro rfl
      exact hfirst (UndoHistory.mem_forwards.mp hother)
    · intro other hother
      rw [Tables.stepIds, hids _ rfl] at hother
      obtain ⟨below, hlocated⟩ := hinvariant.written
      have htail : ∀ kept ∈ state.tables.get_rev_cursor.redo_tail, kept ∈ state.tables.stepIds := by
        intro kept hkept
        rw [hlocated.split]
        exact List.mem_append_right _ hkept
      rw [List.mem_append]
      rcases List.mem_append.mp hother with hother | hother
      · rcases List.mem_append.mp hother with hother | hother
        · exact Or.inl (hinvariant.logged other (List.mem_append_left _ hother))
        · rw [List.mem_singleton.mp hother]
          exact Or.inr List.mem_cons_self
      · rcases List.mem_append.mp hother with hother | hother
        · exact Or.inl (hinvariant.logged other (List.mem_append_right _ hother))
        · exact Or.inl (hinvariant.logged other (List.mem_append_left _ (htail other hother)))

theorem WellKept.drop {rows : List RevLogRow} {count : Nat} (hkept : WellKept rows) : WellKept (rows.drop count) := by
  refine ⟨hkept.ascending.drop, fun row hrow => hkept.small row (List.mem_of_mem_drop hrow), ?_, ?_⟩
  · rw [List.length_drop]
    have hfew := hkept.few
    omega
  · rw [List.map_drop]
    exact hkept.unique.sublist (List.drop_sublist count _)

/-- Deleting the rows whose seqs are the oldest drops the front of the log. -/
theorem evict_eq {tables : Tables} {max_steps : Nat} (hkept : WellKept tables.rev_log)
    (hmore : ¬ tables.rev_log.length ≤ max_steps) :
    (tables.evict_oldest_rev_log max_steps).2 =
      { tables with rev_log := tables.rev_log.drop (tables.rev_log.length - max_steps) } := by
  rw [Tables.evict_oldest_rev_log, if_neg hmore, Tables.evicted, hkept.bySeq_eq]
  generalize tables.rev_log.length - max_steps = count
  have hsplit := List.take_append_drop count tables.rev_log
  have hascending := hkept.ascending
  rw [← hsplit] at hascending
  obtain ⟨-, -, hcross⟩ := List.pairwise_append.mp hascending
  have hgone : (tables.rev_log.take count).filter
      (fun row => row.seq ∉ (tables.rev_log.take count).map (·.seq)) = [] := by
    refine List.filter_eq_nil_iff.mpr fun row hrow => ?_
    rw [decide_eq_true_iff, not_not]
    exact List.mem_map_of_mem hrow
  have hstays : (tables.rev_log.drop count).filter
      (fun row => row.seq ∉ (tables.rev_log.take count).map (·.seq)) = tables.rev_log.drop count := by
    refine List.filter_eq_self.mpr fun row hrow => decide_eq_true fun hmem => ?_
    obtain ⟨old, hold, hseq⟩ := List.mem_map.mp hmem
    have hlt := hcross old hold row hrow
    omega
  have hfilter := calc
    tables.rev_log.filter (fun row => row.seq ∉ (tables.rev_log.take count).map (·.seq))
      = (tables.rev_log.take count ++ tables.rev_log.drop count).filter
          (fun row => row.seq ∉ (tables.rev_log.take count).map (·.seq)) := by rw [hsplit]
    _ = tables.rev_log.drop count := by rw [List.filter_append, hgone, hstays, List.nil_append]
  simp only [hfilter]

theorem Invariant.evict {max_steps : Nat} (hinvariant : Invariant decode state)
    (horderly : Orderly state (.evict max_steps)) (hnext : state.next decode (.evict max_steps) = some after) :
    Invariant decode after := by
  obtain rfl := Option.some.inj hnext
  by_cases hmore : state.tables.rev_log.length ≤ max_steps
  · rw [Tables.evict_oldest_rev_log, if_pos hmore]
    exact hinvariant
  · obtain ⟨hidle, hspared⟩ := horderly.resolve_left hmore
    rw [evict_eq hinvariant.kept hmore]
    rw [Tables.evicted, hinvariant.kept.bySeq_eq] at hspared
    generalize state.tables.rev_log.length - max_steps = count at hspared
    obtain ⟨history, hreplay, hstanding⟩ := hinvariant.idle hidle
    have hids : (state.tables.rev_log.drop count).map (·.step_id) = state.tables.stepIds.drop count := List.map_drop
    have hevict : Standing (state.tables.stepIds.drop count) state.dropped history state.tables.get_rev_cursor := by
      refine hstanding.evict fun step_id hmem => ?_
      rw [Tables.stepIds, ← List.map_take] at hmem
      obtain ⟨row, hrow, rfl⟩ := List.mem_map.mp hmem
      exact hspared row hrow
    rw [← hids] at hevict
    obtain ⟨below, hlocated, -⟩ := hevict.located
    refine ⟨hinvariant.kept.drop, ⟨below, hlocated⟩, ⟨history, _, hreplay, hevict, 0, fun other _ => hidle other, ?_⟩,
      hinvariant.distinct, ?_⟩
    · simp only [hidle 0]
      rfl
    · intro step_id hmem
      refine hinvariant.logged step_id ?_
      rw [Tables.stepIds, hids] at hmem
      rcases List.mem_append.mp hmem with hmem | hmem
      · exact List.mem_append_left _ (List.mem_of_mem_drop hmem)
      · exact List.mem_append_right _ hmem

/-- A call under way is the only one. -/
theorem others_of_setCall {call : Nat} {phase : Option Phase} (hothers : ∀ other, other ≠ call → state.calls other = none) :
    ∀ other, other ≠ call → (state.setCall call phase).calls other = none := by
  intro other hne
  rw [State.setCall_ne hne]
  exact hothers other hne

theorem Invariant.readSteps {call : Nat} {kind : Kind} (hinvariant : Invariant decode state)
    (horderly : Orderly state (.readSteps call kind)) (hnext : state.next decode (.readSteps call kind) = some after) :
    Invariant decode after := by
  have hidle : state.Idle := horderly
  simp only [State.next, hidle call] at hnext
  obtain rfl := Option.some.inj hnext
  obtain ⟨history, hreplay, hstanding⟩ := hinvariant.idle hidle
  refine ⟨hinvariant.kept, hinvariant.written, ⟨history, _, hreplay, hstanding, call,
    others_of_setCall fun other _ => hidle other, ?_⟩, hinvariant.distinct, hinvariant.logged⟩
  rw [State.setCall_self]
  exact ⟨rfl, rfl⟩

/-- The call an event is about is the one under way. -/
theorem Invariant.underway {call : Nat} {phase : Phase} (hinvariant : Invariant decode state)
    (hcall : state.calls call = some phase) : ∃ history standing, UndoHistory.empty.replay state.acts = some history ∧
      Standing state.tables.stepIds state.dropped history standing ∧
      (∀ other, other ≠ call → state.calls other = none) ∧ Fits decode state standing (some phase) := by
  obtain ⟨history, standing, hreplay, hstanding, index, hothers, hfits⟩ := hinvariant.standing
  by_cases hsame : call = index
  · subst hsame
    rw [hcall] at hfits
    exact ⟨history, standing, hreplay, hstanding, hothers, hfits⟩
  · rw [hothers call hsame] at hcall
    cases hcall

theorem kind_of_planOf {kind : Kind} {snapshot : RevLogSnapshot} {plan : Plan}
    (hplan : planOf decode kind snapshot = .ok plan) : plan.kind = kind := by
  cases kind with
  | undo =>
    simp only [planOf, undo] at hplan
    split at hplan
    case h_1 => cases hplan
    case h_2 =>
      obtain ⟨step, -, hplan⟩ := effects.except_bind_eq_ok_iff.mp hplan
      obtain ⟨diff, -, hok⟩ := effects.except_bind_eq_ok_iff.mp hplan
      rw [← Except.ok.inj hok]
  | redo => exact (redo_plan hplan).1

theorem Invariant.readCursor {call : Nat} (hinvariant : Invariant decode state)
    (hnext : state.next decode (.readCursor call) = some after) : Invariant decode after := by
  simp only [State.next] at hnext
  split at hnext
  case h_2 => cases hnext
  case h_1 kind steps hcall =>
    obtain ⟨history, standing, hreplay, hstanding, hothers, hfits⟩ := hinvariant.underway hcall
    obtain ⟨hcursor, rfl⟩ := hfits
    split at hnext
    case h_1 plan hplan =>
      obtain rfl := Option.some.inj hnext
      refine ⟨hinvariant.kept, hinvariant.written, ⟨history, standing, hreplay, hstanding, call,
        others_of_setCall hothers, ?_⟩, hinvariant.distinct, hinvariant.logged⟩
      rw [State.setCall_self]
      refine ⟨hcursor, ?_⟩
      rw [kind_of_planOf hplan]
      exact hplan
    case h_2 =>
      obtain rfl := Option.some.inj hnext
      refine ⟨hinvariant.kept, hinvariant.written, ⟨history, standing, hreplay, hstanding, call,
        others_of_setCall hothers, ?_⟩, hinvariant.distinct, hinvariant.logged⟩
      rw [State.setCall_self]
      exact hcursor

/-- Applying a plan does to the history what it will do to the cursor. -/
theorem Standing.apply {history : UndoHistory String} {plan : Plan} (hkept : WellKept state.tables.rev_log)
    (hstanding : Standing state.tables.stepIds state.dropped history state.tables.get_rev_cursor)
    (hplan : planOf decode plan.kind state.tables.rev_log_snapshot = .ok plan)
    (hdropped : plan.kind = .undo → plan.step.step_id ∉ state.dropped) :
    ∃ moved, history.act plan.act = some moved ∧ Standing state.tables.stepIds state.dropped moved plan.cursor := by
  cases hkind : plan.kind with
  | undo =>
    obtain ⟨⟨below, hlocated, hdone⟩, hundone, hredoable⟩ := hstanding
    rw [hkind, Tables.rev_log_snapshot, hkept.fetch_eq] at hplan
    obtain ⟨-, hcursor, hmoved⟩ := undo_plan hkept hlocated hplan
    rw [Plan.act, hkind, hmoved]
    exact Standing.revert hlocated hdone hundone hredoable hcursor (hdropped hkind)
  | redo =>
    rw [hkind] at hplan
    obtain ⟨-, rest, htail, hmoved⟩ := redo_plan hplan
    rw [Plan.act, hkind, hmoved]
    exact hstanding.reapply htail

theorem forwards_act {acts : List (HistoryAct String)} {plan : Plan} :
    UndoHistory.forwards (acts ++ [plan.act]) = UndoHistory.forwards acts := by
  rw [UndoHistory.forwards_append, Plan.act]
  cases plan.kind <;> exact List.append_nil _

theorem Invariant.apply {call : Nat} (hinvariant : Invariant decode state) (horderly : Orderly state (.apply call))
    (hnext : state.next decode (.apply call) = some after) : Invariant decode after := by
  simp only [State.next] at hnext
  split at hnext
  case h_2 => cases hnext
  case h_1 plan hcall =>
    obtain rfl := Option.some.inj hnext
    obtain ⟨history, standing, hreplay, hstanding, hothers, hcursor, hplan⟩ := hinvariant.underway hcall
    rw [hcursor] at hstanding
    obtain ⟨moved, hact, hmoved⟩ := hstanding.apply hinvariant.kept hplan (horderly plan hcall)
    refine ⟨hinvariant.kept, hinvariant.written, ⟨moved, plan.cursor, ?_, hmoved, call, others_of_setCall hothers, ?_⟩,
      ?_, ?_⟩
    · rw [UndoHistory.replay_snoc hreplay, hact]
    · have hself : (state.setCall call (some (.applied plan))).calls call = some (.applied plan) := State.setCall_self ..
      simp only [hself]
      rfl
    · rw [forwards_act]
      exact hinvariant.distinct
    · intro step_id hmem
      exact List.mem_append_left _ (hinvariant.logged step_id hmem)

theorem Invariant.abandon {call : Nat} (hinvariant : Invariant decode state) (horderly : Orderly state (.abandon call))
    (hnext : state.next decode (.abandon call) = some after) : Invariant decode after := by
  simp only [State.next] at hnext
  split at hnext
  case h_2 => cases hnext
  case h_1 phase hcall =>
    obtain rfl := Option.some.inj hnext
    obtain ⟨history, standing, hreplay, hstanding, hothers, hfits⟩ := hinvariant.underway hcall
    have hcursor : standing = state.tables.get_rev_cursor := by
      cases phase with
      | reading kind steps => exact hfits.1
      | planned plan => exact hfits.1
      | applied plan => exact absurd hcall (horderly plan)
    refine ⟨hinvariant.kept, hinvariant.written, ⟨history, standing, hreplay, hstanding, call,
      others_of_setCall hothers, ?_⟩, hinvariant.distinct, hinvariant.logged⟩
    rw [State.setCall_self]
    exact hcursor

theorem Invariant.write {call : Nat} (hinvariant : Invariant decode state)
    (hnext : state.next decode (.write call) = some after) : Invariant decode after := by
  simp only [State.next] at hnext
  split at hnext
  case h_2 => cases hnext
  case h_1 plan hcall =>
    obtain rfl := Option.some.inj hnext
    obtain ⟨history, standing, hreplay, hstanding, hothers, rfl⟩ := hinvariant.underway hcall
    obtain ⟨below, hlocated, -⟩ := hstanding.located
    refine ⟨hinvariant.kept, ⟨below, hlocated⟩, ⟨history, plan.cursor, hreplay, hstanding, call,
      others_of_setCall hothers, ?_⟩, hinvariant.distinct, hinvariant.logged⟩
    have hself : (state.setCall call none).calls call = none := State.setCall_self ..
    simp only [hself]
    rfl

theorem Invariant.next {event : Event} (hinvariant : Invariant decode state) (horderly : Orderly state event)
    (hnext : state.next decode event = some after) : Invariant decode after := by
  cases event with
  | append => exact hinvariant.append horderly hnext
  | evict => exact hinvariant.evict horderly hnext
  | readSteps => exact hinvariant.readSteps horderly hnext
  | readCursor => exact hinvariant.readCursor hnext
  | apply => exact hinvariant.apply horderly hnext
  | abandon => exact hinvariant.abandon horderly hnext
  | write => exact hinvariant.write hnext

end Steps

section Runs

def readable (_ : String) : Option StepDiff := some ⟨⟨["$flagged"], []⟩, ⟨[], []⟩⟩

def appended (step_id : String) : Event := .append step_id "m1" "primary" "\x7b\x7d" "2024-01-01T00:00:00Z"

/-- A call that ends well. -/
def whole (kind : Kind) : List Event := [.readSteps 0 kind, .readCursor 0, .apply 0, .write 0]

def runOf (events : List Event) : Option State :=
  TransitionSystem.runActions (State.next readable) (fun _ _ => true) State.start events

/-- An undo that fails between its diff and its cursor, and the undo after it. -/
def interrupted : List Event :=
  [appended "a", .readSteps 0 .undo, .readCursor 0, .apply 0, .abandon 0] ++ whole .undo

/-- A forward action after an undo, then two undos. -/
def truncated : List Event := [appended "a"] ++ whole .undo ++ [appended "b"] ++ whole .undo ++ whole .undo

def fiftyOne : List Event := (List.range 51).map fun n => appended (String.ofList (List.replicate n 'x'))

/-- In every state that orderly events reach, the log reads and the mail's history are consistent. -/
theorem consistent_of_orderly (decode : String → Option StepDiff) {state : State}
    (hreach : TransitionSystem.Reachable (system decode) Orderly state) : Consistent state := by
  have hinvariant : Invariant decode state := by
    refine TransitionSystem.Reachable.invariant ?_ ?_ hreach
    · rintro _ rfl
      exact Invariant.start
    · intro before event after hbefore horderly hnext
      exact hbefore.next horderly hnext
  exact hinvariant.consistent

theorem consistent_after_an_undo :
    ∃ state, runOf (appended "a" :: whole .undo) = some state ∧ Consistent state := by
  have hstart : TransitionSystem.Reachable (system readable) Orderly State.start := .start rfl
  have hroom : Orderly State.start (appended "a") :=
    Or.inr ⟨List.not_mem_nil, by decide, by decide, fun _ => rfl⟩
  have hforward := hstart.next hroom rfl
  have hsteps := hforward.next (show Orderly _ (.readSteps 0 .undo) from fun _ => rfl) rfl
  have hcursor := hsteps.next (show Orderly _ (.readCursor 0) from trivial) rfl
  have happly := hcursor.next (show Orderly _ (.apply 0) from fun _ _ _ => List.not_mem_nil) rfl
  have hwrite := happly.next (show Orderly _ (.write 0) from trivial) rfl
  exact ⟨_, rfl, consistent_of_orderly readable hwrite⟩

theorem not_consistent_of_check {events : List Event} {check : State → Bool}
    (hcheck : ∀ state, Consistent state → check state = true) (hrun : (runOf events).map check = some false) :
    ∃ state, runOf events = some state ∧ ¬ Consistent state := by
  obtain ⟨state, hstate, hfalse⟩ := Option.map_eq_some_iff.mp hrun
  refine ⟨state, hstate, fun hconsistent => ?_⟩
  rw [hcheck state hconsistent] at hfalse
  cases hfalse

def cursorRead (state : State) : Bool :=
  state.tables.get_rev_cursor.cursor_step_id.all (· ∈ state.tables.rev_log_snapshot.steps.map (·.step_id))

theorem undo_redo_breaks :
    (∃ state, runOf interrupted = some state ∧ ¬ Consistent state) ∧
    (∃ state, runOf truncated = some state ∧ ¬ Consistent state) ∧
    (∃ state, runOf fiftyOne = some state ∧ ¬ Consistent state) ∧
    (runOf interrupted).map (·.acts) = some [.forward "a", .revert "a", .revert "a"] ∧
    (runOf truncated).map (·.acts) = some [.forward "a", .revert "a", .forward "b", .revert "b", .revert "a"] := by
  refine ⟨?_, ?_, ?_, by decide, by decide⟩
  · exact not_consistent_of_check (fun _ hconsistent => hconsistent.disciplined) (by decide)
  · exact not_consistent_of_check (fun _ hconsistent => hconsistent.disciplined) (by decide)
  · refine @not_consistent_of_check _ cursorRead (fun state hconsistent => ?_) (by decide +kernel)
    rw [cursorRead, Option.all_eq_true]
    exact fun step_id hcursor => decide_eq_true (hconsistent.cursor_read step_id hcursor)

end Runs

end posthaste.undo_redo
