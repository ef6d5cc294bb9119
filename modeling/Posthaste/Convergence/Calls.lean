import Posthaste.Convergence.Cycles

open serde posthaste.model posthaste.store posthaste.service

namespace posthaste.convergence

/-- Some run of the process has come to this store at this moment, with the indexed
    cycle of this entry stamp at this stage. -/
def Stands (index : Nat) (cycle_started_mono clock : Int) (stage : Stage) (store : DatabaseStore) : Prop :=
  ∃ process cycle, processSystem.Reachable TransitionSystem.unguarded process ∧ process.store = store ∧
    process.clock = clock ∧ process.cycles[index]? = some cycle ∧ cycle.stage = stage ∧
    cycle.cycle_started_mono = cycle_started_mono

namespace Stands

open effects

variable {index : Nat} {cycle_started_mono clock : Int} {stage : Stage} {store : DatabaseStore} {α : Type}

theorem beside (hstands : Stands index cycle_started_mono clock stage store) {write : Write}
    (hbeside : write.beside = true) : Stands index cycle_started_mono clock stage (Write.apply store write) := by
  obtain ⟨process, cycle, hreach, rfl, hclock, hcycle, hstage, hstarted⟩ := hstands
  have hstep : process.step (.write write) = some { process with store := Write.apply process.store write } :=
    if_pos hbeside
  exact ⟨_, cycle, .next hreach trivial hstep, rfl, hclock, hcycle, hstage, hstarted⟩

/-- One step of the cycle itself. -/
theorem advance (hstands : Stands index cycle_started_mono clock stage store) (action : CycleAction) {next : Stage}
    {after : DatabaseStore}
    (hstep : ∀ (process : Process) (cycle : Cycle), process.store = store → process.clock = clock →
      cycle.stage = stage → cycle.cycle_started_mono = cycle_started_mono →
      ∃ (moved : Cycle) (settlements : List Settlement), process.cycleStep index cycle action =
          some { process.put index after moved with settlements } ∧
        moved.stage = next ∧ moved.cycle_started_mono = cycle_started_mono) :
    Stands index cycle_started_mono clock next after := by
  obtain ⟨process, cycle, hreach, hstore, hclock, hcycle, hstage, hstarted⟩ := hstands
  obtain ⟨moved, settlements, hmoves, hnext, hsame⟩ := hstep process cycle hstore hclock hstage hstarted
  have hmove : process.step (.cycle index action) = some { process.put index after moved with settlements } := by
    simp only [Process.step, hcycle]
    exact hmoves
  refine ⟨_, moved, .next hreach trivial hmove, rfl, hclock, ?_, hnext, hsame⟩
  obtain ⟨hindex, _⟩ := List.getElem?_eq_some_iff.mp hcycle
  exact List.getElem?_set_self hindex

theorem writes (hstands : Stands index cycle_started_mono clock stage store) {kind : Write → Bool}
    (hwrite : ∀ store write, kind write = true → Stands index cycle_started_mono clock stage store →
      Stands index cycle_started_mono clock stage (Write.apply store write)) {writes : List Write}
    (hkind : ∀ write ∈ writes, kind write = true) :
    Stands index cycle_started_mono clock stage (writes.foldl Write.apply store) := by
  induction writes generalizing store with
  | nil => exact hstands
  | cons write rest ih =>
    apply ih
    · exact hwrite store write (hkind write List.mem_cons_self) hstands
    · exact fun other hother => hkind other (List.mem_cons_of_mem _ hother)

/-- Any call may run at any time. -/
theorem call (hstands : Stands index cycle_started_mono clock stage store) {call : MailService α}
    (hcall : Writes Write.beside call) : Stands index cycle_started_mono clock stage (final (call.run store)) := by
  obtain ⟨writes, hkind, hfinal⟩ := hcall store
  rw [hfinal]
  exact hstands.writes (fun _ _ hbeside hbefore => hbefore.beside hbeside) hkind

theorem pull {held : Option OperationId} (hstands : Stands index cycle_started_mono clock (.pulling held) store)
    {write : Write} (hpulling : write.pulling = true) :
    Stands index cycle_started_mono clock (.pulling held) (Write.apply store write) := by
  refine hstands.advance (.pull write) fun process cycle hstore _ hstage hstarted => ?_
  refine ⟨cycle, process.settlements, ?_, hstage, hstarted⟩
  simp only [Process.cycleStep, Process.pull, hstage, hpulling, if_true, hstore]
  rfl

/-- A chunk or a reconciliation may run while its cycle pulls. -/
theorem pulls {held : Option OperationId} (hstands : Stands index cycle_started_mono clock (.pulling held) store)
    {call : MailService α} (hcall : Writes Write.pulling call) :
    Stands index cycle_started_mono clock (.pulling held) (final (call.run store)) := by
  obtain ⟨writes, hkind, hfinal⟩ := hcall store
  rw [hfinal]
  exact hstands.writes (fun _ _ hpulling hbefore => hbefore.pull hpulling) hkind

theorem settle {id : OperationId} (hstands : Stands index cycle_started_mono clock (.pulling (some id)) store)
    (watermark : Option String) (now : Timestamp) :
    Stands index cycle_started_mono clock (.pulling (some id))
      (Write.apply store (.settle id clock watermark now)) := by
  refine hstands.advance (.settle watermark now) fun process cycle hstore hclock hstage hstarted => ?_
  simp only [Process.cycleStep, Process.settle, Cycle.held, hstage, Option.map_some, Process.settled, hstore, hclock]
  split_ifs
  · exact ⟨_, _, rfl, rfl, hstarted⟩
  · exact ⟨cycle, process.settlements, rfl, hstage, hstarted⟩

theorem settling {id : OperationId} (hstands : Stands index cycle_started_mono clock (.pulling (some id)) store)
    {write : Write} (hwrite : write.settling id clock = true) :
    Stands index cycle_started_mono clock (.pulling (some id)) (Write.apply store write) := by
  cases write with
  | settle settled at_mono watermark now =>
    obtain ⟨hid, hclock⟩ : settled = id ∧ at_mono = clock := by simpa [Write.settling] using hwrite
    rw [hid, hclock]
    exact hstands.settle watermark now
  | claim => cases hwrite
  | _ => exact hstands.pull hwrite

theorem claim {id : OperationId} (hstands : Stands index cycle_started_mono clock (.pulling none) store)
    (hflushable : store.outbox.matchesState id OperationState.is_flushable = true) (now : Timestamp) :
    Stands index cycle_started_mono clock (.pulling (some id)) (Write.apply store (.claim id now)) := by
  refine hstands.advance (.claim id now) fun process cycle hstore _ hstage hstarted => ?_
  refine ⟨{ cycle with stage := .pulling (some id) }, process.settlements, ?_, rfl, hstarted⟩
  simp only [Process.cycleStep, Process.claim, hstage, hstore, hflushable, if_true]
  rfl

theorem release {id : OperationId} (hstands : Stands index cycle_started_mono clock (.pulling (some id)) store) :
    Stands index cycle_started_mono clock (.pulling none) store := by
  refine hstands.advance .release fun process cycle hstore _ hstage hstarted => ?_
  refine ⟨{ cycle with stage := .pulling none }, process.settlements, ?_, rfl, hstarted⟩
  simp only [Process.cycleStep, Process.release, Cycle.held, hstage, Option.map_some, hstore]
  rfl

/-- One operation of the cycle's flush, stamped with the moment it runs at. -/
theorem flush_operation (hstands : Stands index cycle_started_mono clock (.pulling none) store) (gateway : MailGateway)
    (id : OperationId) (now : Timestamp) :
    Stands index cycle_started_mono clock (.pulling none)
      (final ((flush_operation gateway id clock now).run store)) := by
  obtain ⟨writes, hkind, hfinal⟩ | ⟨hflushable, writes, hkind, hfinal⟩ := @flush_cases clock gateway id now store
  · rw [hfinal]
    exact hstands.writes (fun _ _ hbeside hbefore => hbefore.beside hbeside) hkind
  · rw [hfinal]
    apply release
    exact (hstands.claim hflushable now).writes (fun _ _ hwrite hbefore => hbefore.settling hwrite) hkind

theorem drain (hstands : Stands index cycle_started_mono clock (.pulling none) store) (gateway : MailGateway)
    (now : Timestamp) (queue : List OperationId) :
    Stands index cycle_started_mono clock (.pulling none) (final ((drain gateway clock now queue).run store)) := by
  induction queue generalizing store with
  | nil => exact hstands
  | cons id rest ih =>
    have hhead := hstands.flush_operation gateway id now
    unfold service.drain
    cases hrun : (service.flush_operation gateway id clock now).run store with
    | error error middle =>
      rw [hrun] at hhead
      rw [run_bind_of_error hrun]
      exact hhead
    | ok goesOn middle =>
      rw [hrun] at hhead
      rw [run_bind_of_ok hrun]
      split_ifs
      · exact ih hhead
      · exact hhead

/-- The cycle's flush, with the draft making ahead of it. -/
theorem flush_account (hstands : Stands index cycle_started_mono clock (.pulling none) store) (gateway : MailGateway)
    (wall_now : String) (now : Timestamp) :
    Stands index cycle_started_mono clock (.pulling none)
      (final ((flush_account gateway wall_now clock now).run store)) := by
  have hensured := hstands.call (writes_ensure_drafts gateway wall_now clock)
  unfold service.flush_account
  cases hrun : (ensure_drafts_for_held_sends gateway wall_now clock).run store with
  | error error middle =>
    rw [hrun] at hensured
    rw [run_bind_of_error hrun]
    exact hensured
  | ok value middle =>
    rw [hrun] at hensured
    rw [run_bind_of_ok hrun, MailService.run_read_bind]
    exact hensured.drain gateway now _

theorem complete (hstands : Stands index cycle_started_mono clock (.pulling none) store) :
    Stands index cycle_started_mono clock .pulled store := by
  refine hstands.advance .complete fun process cycle hstore _ hstage hstarted => ?_
  refine ⟨{ cycle with stage := .pulled, completed := true }, process.settlements, ?_, rfl, hstarted⟩
  simp only [Process.cycleStep, Process.complete, hstage, hstore]
  rfl

theorem listSettled (hstands : Stands index cycle_started_mono clock .pulled store) :
    Stands index cycle_started_mono clock (.listed store.outbox.list_settled_operations) store := by
  refine hstands.advance .listSettled fun process cycle hstore _ hstage hstarted => ?_
  refine ⟨{ cycle with stage := .listed store.outbox.list_settled_operations }, process.settlements, ?_, rfl, hstarted⟩
  simp only [Process.cycleStep, Process.listSettled, hstage, hstore]
  rfl

theorem readCursor {settled : List SettledOperation}
    (hstands : Stands index cycle_started_mono clock (.listed settled) store) :
    Stands index cycle_started_mono clock (.truncating store.message_cursor settled) store := by
  refine hstands.advance .readCursor fun process cycle hstore _ hstage hstarted => ?_
  refine ⟨{ cycle with stage := .truncating store.message_cursor settled }, process.settlements, ?_, rfl, hstarted⟩
  simp only [Process.cycleStep, Process.readCursor, hstage, hstore]
  rfl

variable {message_cursor : Option String} {entry : SettledOperation} {rest : List SettledOperation}

theorem pass (hstands : Stands index cycle_started_mono clock (.truncating message_cursor (entry :: rest)) store)
    (habsorbed : absorbed cycle_started_mono message_cursor entry ≠ true) :
    Stands index cycle_started_mono clock (.truncating message_cursor rest) store := by
  refine hstands.advance .next fun process cycle hstore _ hstage hstarted => ?_
  refine ⟨{ cycle with stage := .truncating message_cursor rest }, process.settlements, ?_, rfl, hstarted⟩
  simp only [Process.cycleStep, Process.next, hstage, hstarted, if_neg habsorbed, hstore]
  rfl

/-- One retirement, with the read of its rows before it. -/
theorem retire (hstands : Stands index cycle_started_mono clock (.truncating message_cursor (entry :: rest)) store)
    (habsorbed : absorbed cycle_started_mono message_cursor entry = true) :
    (∃ diffs after, (retire_operation entry.operation.id (touchedRows store entry.operation)).run store =
        .ok diffs after ∧ Stands index cycle_started_mono clock (.truncating message_cursor rest) after) ∨
      ∃ error after, (retire_operation entry.operation.id (touchedRows store entry.operation)).run store =
        .error error after ∧ Stands index cycle_started_mono clock .left after := by
  have hnext : Stands index cycle_started_mono clock
      (.retiring message_cursor entry (touchedRows store entry.operation) rest) store := by
    refine hstands.advance .next fun process cycle hstore _ hstage hstarted => ?_
    refine ⟨{ cycle with stage := .retiring message_cursor entry (touchedRows store entry.operation) rest },
      process.settlements, ?_, rfl, hstarted⟩
    simp only [Process.cycleStep, Process.next, hstage, hstarted, if_pos habsorbed, hstore]
    rfl
  cases hrun : (retire_operation entry.operation.id (touchedRows store entry.operation)).run store with
  | ok diffs after =>
    refine Or.inl ⟨diffs, after, rfl, hnext.advance .retire fun process cycle hstore _ hstage hstarted => ?_⟩
    refine ⟨{ cycle with stage := .truncating message_cursor rest }, process.settlements, ?_, rfl, hstarted⟩
    simp only [Process.cycleStep, Process.retire, hstage, hstore, hrun]
    rfl
  | error error after =>
    refine Or.inr ⟨error, after, rfl, hnext.advance .retire fun process cycle hstore _ hstage hstarted => ?_⟩
    refine ⟨{ cycle with stage := .left }, process.settlements, ?_, rfl, hstarted⟩
    simp only [Process.cycleStep, Process.retire, hstage, hstore, hrun]
    rfl

theorem truncateAll (hstands : Stands index cycle_started_mono clock (.truncating message_cursor rest) store) :
    ∃ stage, Stands index cycle_started_mono clock stage
      (final ((truncateAll cycle_started_mono message_cursor rest).run store)) := by
  induction rest generalizing store with
  | nil => exact ⟨_, hstands⟩
  | cons entry rest ih =>
    by_cases habsorbed : absorbed cycle_started_mono message_cursor entry = true
    · have hhead : (service.truncateAll cycle_started_mono message_cursor (entry :: rest)).run store =
          (retire_operation entry.operation.id (touchedRows store entry.operation) >>= fun _ =>
            service.truncateAll cycle_started_mono message_cursor rest).run store := by
        conv_lhs => unfold service.truncateAll
        simp only [if_pos habsorbed]
        rfl
      obtain ⟨diffs, after, hrun, hretired⟩ | ⟨error, after, hrun, hleft⟩ := hstands.retire habsorbed
      · rw [hhead, run_bind_of_ok hrun]
        exact ih hretired
      · rw [hhead, run_bind_of_error hrun]
        exact ⟨_, hleft⟩
    · unfold service.truncateAll
      simp only [if_neg habsorbed]
      exact ih (hstands.pass habsorbed)

theorem truncate_settled_operations (hstands : Stands index cycle_started_mono clock .pulled store) :
    ∃ stage, Stands index cycle_started_mono clock stage
      (final ((truncate_settled_operations cycle_started_mono).run store)) :=
  hstands.listSettled.readCursor.truncateAll

/-- The sweep after a completed pull, with no other call in between. -/
theorem sweep_message_overlay (hstands : Stands index cycle_started_mono clock .pulled store)
    (mint : String → Minted) :
    ∃ stage, Stands index cycle_started_mono clock stage
      (final ((sweep_message_overlay cycle_started_mono mint).run store)) := by
  have hadopted := hstands.call (writes_adopt_sent_copies mint)
  unfold service.sweep_message_overlay
  cases hadopt : (adopt_sent_copies mint).run store with
  | error error adopted =>
    rw [hadopt] at hadopted
    rw [run_bind_of_error hadopt]
    exact ⟨_, hadopted⟩
  | ok value adopted =>
    rw [hadopt] at hadopted
    change Stands index cycle_started_mono clock .pulled adopted at hadopted
    rw [run_bind_of_ok hadopt]
    obtain ⟨stage, htruncated⟩ := hadopted.truncate_settled_operations
    cases htruncate : (service.truncate_settled_operations cycle_started_mono).run adopted with
    | error error truncated =>
      rw [htruncate] at htruncated
      rw [run_bind_of_error htruncate]
      exact ⟨stage, htruncated⟩
    | ok value truncated =>
      rw [htruncate] at htruncated
      rw [run_bind_of_ok htruncate]
      have hswept : Writes Write.beside (do sweepRows mint (← replay_inventory)) :=
        (writes_read _).bind fun inventory => writes_sweepRows mint inventory
      exact ⟨stage, htruncated.call hswept⟩

end Stands

end posthaste.convergence
