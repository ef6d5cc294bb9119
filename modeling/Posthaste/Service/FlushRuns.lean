import Posthaste.Library.Batches
import Posthaste.Service.FlushPass

open serde posthaste.model posthaste.store

namespace posthaste.service

open MailService effects

/-- The pushes of a drain, in order, with what came of them. -/
def pushes (gateway : MailGateway) (settled_at_mono : Int) (now : Timestamp) :
    List OperationId → DatabaseStore → List (OperationId × Except FlushError Pushed)
  | [], _ => []
  | id :: rest, store =>
    let flushed := (flush_operation gateway id settled_at_mono now).run store
    ((pushOf gateway id now store).map fun result => (id, result)).toList ++
      if goesOn flushed then pushes gateway settled_at_mono now rest (final flushed) else []

/-- What a whole drain does to the log. -/
structure Drained (batch : List OperationId) (log after : OutboxTable)
    (pushed : List (OperationId × Except FlushError Pushed)) : Prop where
  others : ∀ id, id ∉ batch → after.get_operation id = log.get_operation id
  within : ∀ id result, (id, result) ∈ pushed → id ∈ batch
  retried : ∀ id operation, after.get_operation id = some operation →
    ∃ before, log.get_operation id = some before ∧ Retried before operation ∧
      (operation.attempts = before.attempts ∨ operation.attempts = before.attempts + 1)
  calm : ∀ id before operation, log.get_operation id = some before → interruptedSend before = false →
    after.get_operation id = some operation → interruptedSend operation = false
  shrinks : (queueOf after).Sublist (queueOf log)
  kept : ∀ id operation, log.get_operation id = some operation → operation.state.is_flushable = true →
    interruptedSend operation = false → (∀ result, (id, result) ∈ pushed → fails_again result = true) →
      id ∈ queueOf after
  left : ∀ id result, (id, result) ∈ pushed → fails_again result = false → id ∉ queueOf after
  still : queueOf after = queueOf log →
    (∀ id ∈ batch, id ∈ queueOf log → ∃ result, (id, result) ∈ pushed) ∨
      ∃ id ∈ batch, ∃ before operation, log.get_operation id = some before ∧
        before.attempts + 1 < TRANSIENT_STOP_THRESHOLD ∧ after.get_operation id = some operation ∧
        operation.attempts = before.attempts + 1

section Drain

variable {gateway : MailGateway} {settled_at_mono : Int} {now : Timestamp} {id : OperationId} {rest : List OperationId}
  {store : DatabaseStore}

theorem final_drain_cons : final ((drain gateway settled_at_mono now (id :: rest)).run store) =
    if goesOn ((flush_operation gateway id settled_at_mono now).run store) then
      final ((drain gateway settled_at_mono now rest).run
        (final ((flush_operation gateway id settled_at_mono now).run store)))
    else final ((flush_operation gateway id settled_at_mono now).run store) := by
  rw [drain]
  cases hrun : (flush_operation gateway id settled_at_mono now).run store with
  | error error after =>
    rw [run_bind_of_error hrun]
    rfl
  | ok more after =>
    rw [run_bind_of_ok hrun]
    cases more with
    | true => rfl
    | false => rfl

/-- What one operation pushed, if anything, it pushed itself. -/
theorem of_mem_pushed {other : OperationId} {result : Except FlushError Pushed}
    {pushed : Option (Except FlushError Pushed)} (hmem : (other, result) ∈ (pushed.map fun result => (id, result)).toList) :
    other = id ∧ pushed = some result := by
  cases pushed with
  | none => cases hmem
  | some held =>
    obtain ⟨rfl, rfl⟩ := Prod.mk.inj (List.mem_singleton.mp hmem)
    exact ⟨rfl, rfl⟩

/-- A drain that halts at its first operation. -/
theorem Flushed.halted {middle : DatabaseStore} {pushed : Option (Except FlushError Pushed)}
    (hflushed : Flushed id store middle false pushed) :
    Drained (id :: rest) store.outbox middle.outbox (pushed.map fun result => (id, result)).toList := by
  refine ⟨fun other hother => hflushed.others other fun hsame => hother (hsame ▸ List.mem_cons_self),
    fun other result hmem => (of_mem_pushed hmem).1 ▸ List.mem_cons_self, fun other operation hget => ?_,
    fun other before operation hbefore hwhole hafter => ?_, hflushed.shrinks, fun other operation hget hflushable hwhole hagain => ?_, fun other result hmem hdone => ?_,
    fun hsame => ?_⟩
  · by_cases hother : other = id
    · subst hother
      exact hflushed.retried operation hget
    · rw [hflushed.others other hother] at hget
      exact ⟨operation, hget, Retried.refl _, .inl rfl⟩
  · by_cases hother : other = id
    · subst hother
      exact hflushed.calm before operation hbefore hwhole hafter
    · rw [hflushed.others other hother, hbefore] at hafter
      rw [← Option.some.inj hafter]
      exact hwhole
  · by_cases hother : other = id
    · subst hother
      cases pushed with
      | none =>
        rcases hflushed.idle rfl with ⟨habsent, _⟩ | ⟨_, _, held, hheld, hinterrupted⟩
        · exact absurd (mem_queueOf.mpr ⟨operation, hget, hflushable⟩) habsent
        · rw [hget] at hheld
          rw [Option.some.inj hheld, hinterrupted] at hwhole
          cases hwhole
      | some result =>
        rw [(hflushed.kept result rfl (hagain result (List.mem_singleton.mpr rfl))).1]
        exact mem_queueOf.mpr ⟨operation, hget, hflushable⟩
    · exact mem_queueOf.mpr ⟨operation, (hflushed.others other hother).trans hget, hflushable⟩
  · obtain ⟨rfl, hsome⟩ := of_mem_pushed hmem
    exact (hflushed.left result hsome hdone).2
  · right
    cases pushed with
    | none =>
      rcases hflushed.idle rfl with ⟨_, _, hmore⟩ | ⟨hqueued, hgone, _⟩
      · cases hmore
      · exact absurd (hsame ▸ hqueued) hgone
    | some result =>
      cases hagain : fails_again result with
      | true =>
        obtain ⟨before, operation, hget, hfew, hafter, hmore⟩ := (hflushed.kept result rfl hagain).2 rfl
        exact ⟨id, List.mem_cons_self, before, operation, hget, hfew, hafter, hmore⟩
      | false =>
        obtain ⟨hqueued, hgone⟩ := hflushed.left result rfl hagain
        exact absurd (hsame ▸ hqueued) hgone

/-- A drain that goes on after its first operation. -/
theorem Flushed.goes_on {middle : DatabaseStore} {after : OutboxTable} {pushed : Option (Except FlushError Pushed)}
    {later : List (OperationId × Except FlushError Pushed)} (hfresh : id ∉ rest)
    (hflushed : Flushed id store middle true pushed) (hdrained : Drained rest middle.outbox after later) :
    Drained (id :: rest) store.outbox after ((pushed.map fun result => (id, result)).toList ++ later) := by
  have hrow : after.get_operation id = middle.outbox.get_operation id := hdrained.others id hfresh
  have hqueue : id ∈ queueOf after ↔ id ∈ queueOf middle.outbox := by
    rw [mem_queueOf, mem_queueOf, hrow]
  refine ⟨fun other hother => ?_, fun other result hmem => ?_, fun other operation hget => ?_,
    fun other before operation hbefore hwhole hafter => ?_, hdrained.shrinks.trans hflushed.shrinks, fun other operation hget hflushable hwhole hagain => ?_,
    fun other result hmem hdone => ?_, fun hsame => ?_⟩
  · obtain ⟨hhead, hnot⟩ := not_or.mp (mt List.mem_cons.mpr hother)
    rw [hdrained.others other hnot, hflushed.others other hhead]
  · rcases List.mem_append.mp hmem with hmem | hmem
    · exact (of_mem_pushed hmem).1 ▸ List.mem_cons_self
    · exact List.mem_cons_of_mem _ (hdrained.within other result hmem)
  · by_cases hother : other = id
    · subst hother
      rw [hrow] at hget
      exact hflushed.retried operation hget
    · obtain ⟨before, hbefore, hretried⟩ := hdrained.retried other operation hget
      rw [hflushed.others other hother] at hbefore
      exact ⟨before, hbefore, hretried⟩
  · by_cases hother : other = id
    · subst hother
      rw [hrow] at hafter
      exact hflushed.calm before operation hbefore hwhole hafter
    · exact hdrained.calm other before operation ((hflushed.others other hother).trans hbefore) hwhole hafter
  · by_cases hother : other = id
    · subst hother
      rw [hqueue]
      have hqueued := mem_queueOf.mpr ⟨operation, hget, hflushable⟩
      cases pushed with
      | none =>
        rcases hflushed.idle rfl with ⟨habsent, _⟩ | ⟨_, _, held, hheld, hinterrupted⟩
        · exact absurd hqueued habsent
        · rw [hget] at hheld
          rw [Option.some.inj hheld, hinterrupted] at hwhole
          cases hwhole
      | some result =>
        rw [(hflushed.kept result rfl (hagain result List.mem_cons_self)).1]
        exact hqueued
    · exact hdrained.kept other operation ((hflushed.others other hother).trans hget) hflushable hwhole
        fun result hmem => hagain result (List.mem_append_right _ hmem)
  · rcases List.mem_append.mp hmem with hmem | hmem
    · obtain ⟨rfl, hsome⟩ := of_mem_pushed hmem
      rw [hqueue]
      exact (hflushed.left result hsome hdone).2
    · exact hdrained.left other result hmem hdone
  · -- the queue that the whole drain keeps is kept by each of its parts
    have hmiddle : queueOf middle.outbox = queueOf store.outbox :=
      hflushed.shrinks.eq_of_length_le (hsame ▸ hdrained.shrinks.length_le)
    rcases hdrained.still (hsame.trans hmiddle.symm) with hall | ⟨other, hother, before, operation, hget, hfew, hcount⟩
    · left
      intro other hother hqueued
      rcases List.mem_cons.mp hother with rfl | hmem
      · cases pushed with
        | none =>
          rcases hflushed.idle rfl with ⟨habsent, _⟩ | ⟨_, hgone, _⟩
          · exact absurd hqueued habsent
          · exact absurd (hmiddle ▸ hqueued) hgone
        | some result => exact ⟨result, List.mem_append_left _ (List.mem_singleton.mpr rfl)⟩
      · obtain ⟨result, hresult⟩ := hall other hmem (hmiddle ▸ hqueued)
        exact ⟨result, List.mem_append_right _ hresult⟩
    · right
      have hne : other ≠ id := fun heq => hfresh (heq ▸ hother)
      rw [hflushed.others other hne] at hget
      exact ⟨other, List.mem_cons_of_mem _ hother, before, operation, hget, hfew, hcount⟩

/-- Every drain of distinct operations, by its first one. -/
theorem drained (gateway : MailGateway) (settled_at_mono : Int) (now : Timestamp) {batch : List OperationId}
    (hnodup : batch.Nodup) (store : DatabaseStore) :
    Drained batch store.outbox (final ((drain gateway settled_at_mono now batch).run store)).outbox
      (pushes gateway settled_at_mono now batch store) := by
  induction batch generalizing store with
  | nil =>
    exact ⟨fun _ _ => rfl, fun _ _ hmem => (by cases hmem), fun _ operation hget => ⟨operation, hget, Retried.refl _, .inl rfl⟩,
      fun _ before operation hbefore hwhole hafter => Option.some.inj (hbefore.symm.trans hafter) ▸ hwhole,
      List.Sublist.refl _, fun _ operation hget hflushable _ _ => mem_queueOf.mpr ⟨operation, hget, hflushable⟩,
      fun _ _ hmem => (by cases hmem), fun _ => .inl fun _ hmem => (by cases hmem)⟩
  | cons id rest ih =>
    obtain ⟨hfresh, hrest⟩ := List.nodup_cons.mp hnodup
    have hflushed := flushed gateway id settled_at_mono now store
    rw [final_drain_cons, pushes]
    cases hmore : goesOn ((flush_operation gateway id settled_at_mono now).run store) with
    | false =>
      rw [hmore] at hflushed
      simp only [Bool.false_eq_true, if_false, List.append_nil]
      exact hflushed.halted
    | true =>
      rw [hmore] at hflushed
      simp only [if_true]
      exact hflushed.goes_on hfresh (ih hrest _)

/-- What an operation's push came to is what the provider answered to it. -/
theorem push_of_mem {batch : List OperationId} (hnodup : batch.Nodup) {result : Except FlushError Pushed}
    (hmem : (id, result) ∈ pushes gateway settled_at_mono now batch store) :
    ∃ held operation, store.outbox.get_operation id = some operation ∧ result = push_operation gateway held operation := by
  induction batch generalizing store with
  | nil => cases hmem
  | cons first rest ih =>
    obtain ⟨hfresh, hrest⟩ := List.nodup_cons.mp hnodup
    rw [pushes] at hmem
    rcases List.mem_append.mp hmem with hhead | hlater
    · unfold pushOf at hhead
      cases hget : store.outbox.get_operation first with
      | none =>
        rw [hget] at hhead
        cases hhead
      | some operation =>
        rw [hget] at hhead
        dsimp only at hhead
        split_ifs at hhead
        · cases hhead
        · cases hhead
        · obtain ⟨rfl, rfl⟩ := Prod.mk.inj (List.mem_singleton.mp hhead)
          exact ⟨_, operation, hget, rfl⟩
    · split_ifs at hlater
      · obtain ⟨held, operation, hget, hresult⟩ := ih hrest hlater
        have hne : id ≠ first := by
          rintro rfl
          exact hfresh ((drained gateway settled_at_mono now hrest _).within id result hlater)
        rw [(flushed gateway first settled_at_mono now store).others id hne] at hget
        exact ⟨held, operation, hget, hresult⟩
      · cases hlater

end Drain

end posthaste.service
