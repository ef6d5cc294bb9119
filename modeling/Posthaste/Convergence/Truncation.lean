import Posthaste.Convergence.Cycles

open serde posthaste.model posthaste.store posthaste.service

namespace posthaste.convergence

/-- Nothing becomes settled: each settled row was stored so before. -/
def KeepsSettled (store after : DatabaseStore) : Prop :=
  ∀ row ∈ after.outbox.rows, row.operation.state = .Applied → row ∈ store.outbox.rows

section Rows

variable {outbox : OutboxTable} {store : DatabaseStore} {id : OperationId}

theorem mem_of_updateWhereState {guard : OperationState → Bool} {change : OperationRow → OperationRow}
    {hid : ∀ row, (change row).id = row.id} (hchange : ∀ row, guard row.operation.state = true →
      (change row).operation.state ≠ .Applied) {row : OperationRow}
    (hrow : row ∈ (outbox.updateWhereState id guard change hid).rows) (happlied : row.operation.state = .Applied) :
    row ∈ outbox.rows := by
  obtain ⟨before, hbefore, rfl⟩ := List.mem_map.mp hrow
  split_ifs at happlied ⊢ with hmatch
  · exact absurd happlied (hchange before hmatch.2)
  · exact hbefore

theorem mem_of_deleteIf {guard : OperationRow → Bool} {row : OperationRow}
    (hrow : row ∈ (outbox.deleteIf id guard).rows) : row ∈ outbox.rows :=
  List.mem_of_mem_filter hrow

theorem mem_of_enqueue {operation : Operation} (hstate : operation.state ≠ .Applied) {row : OperationRow}
    (hrow : row ∈ (outbox.enqueue_operation operation).rows) (happlied : row.operation.state = .Applied) :
    row ∈ outbox.rows := by
  unfold OutboxTable.enqueue_operation Table.insertOrIgnore at hrow
  split_ifs at hrow
  · exact hrow
  · obtain hrow | hrow := List.mem_append.mp hrow
    · exact hrow
    · rw [List.mem_singleton.mp hrow] at happlied
      exact absurd happlied hstate

/-- Of all writes only a settlement settles. -/
theorem keepsSettled_of_pulling {write : Write} (hwrite : write.pulling = true) :
    KeepsSettled store (Write.apply store write) := by
  intro row hrow happlied
  cases write with
  | enqueue operation =>
    have hstate : operation.state ≠ .Applied := bne_iff_ne.mp hwrite
    exact mem_of_enqueue hstate hrow happlied
  | updateState id state attempts last_error now =>
    have hstate : state ≠ .Applied := bne_iff_ne.mp hwrite
    exact mem_of_updateWhereState (fun _ _ => hstate) hrow happlied
  | replacePayload id payload now =>
    refine mem_of_updateWhereState (fun before hpending => ?_) hrow happlied
    rw [show before.operation.state = .Pending by simpa using hpending]
    exact OperationState.noConfusion
  | remove id => exact mem_of_deleteIf hrow
  | removeUnlessInflight id => exact mem_of_deleteIf hrow
  | derive => exact hrow
  | claim | settle => cases hwrite
  | pull after => exact hrow

theorem keepsSettled_claim (now : Timestamp) : KeepsSettled store (Write.apply store (.claim id now)) := by
  intro row hrow happlied
  obtain ⟨before, hbefore, rfl⟩ := List.mem_map.mp hrow
  by_cases hclaimed : before.id = id ∧ before.operation.state.is_flushable = true
  · rw [if_pos hclaimed] at happlied
    cases happlied
  · rw [if_neg hclaimed]
    exact hbefore

/-- A settlement stamps the one row it settles. -/
theorem rows_of_settle {settled_at_mono : Int} {watermark : Option String} {now : Timestamp} {row : OperationRow}
    (hrow : row ∈ (Write.apply store (.settle id settled_at_mono watermark now)).outbox.rows) :
    row.id = id ∧ row.settled_at_mono = some settled_at_mono ∨ row.id ≠ id ∧ row ∈ store.outbox.rows := by
  obtain ⟨before, hbefore, rfl⟩ := List.mem_map.mp hrow
  by_cases hid : before.id = id
  · rw [if_pos ⟨hid, rfl⟩]
    exact Or.inl ⟨hid, rfl⟩
  · rw [if_neg fun hmatch => hid hmatch.1]
    exact Or.inr ⟨hid, hbefore⟩

theorem isSome_of_mem {row : OperationRow} (hrow : row ∈ outbox.rows) : (outbox.get_operation row.id).isSome := by
  unfold OutboxTable.get_operation
  rw [Table.find_of_mem hrow]
  rfl

theorem keepsSettled_settle_of_absent {settled_at_mono : Int} {watermark : Option String} {now : Timestamp}
    (habsent : (store.outbox.get_operation id).isSome ≠ true) :
    KeepsSettled store (Write.apply store (.settle id settled_at_mono watermark now)) := by
  intro row hrow _
  obtain ⟨before, hbefore, rfl⟩ := List.mem_map.mp hrow
  by_cases hid : before.id = id
  · have hsome := isSome_of_mem hbefore
    rw [hid] at hsome
    exact absurd hsome habsent
  · rw [if_neg fun hmatch => hid hmatch.1]
    exact hbefore

theorem keepsSettled_of_retired {touched : List MessageId} {after : DatabaseStore}
    (hretired : Retired id touched store after) : KeepsSettled store after := by
  intro row hrow _
  rw [hretired.outbox] at hrow
  exact mem_of_deleteIf hrow

end Rows

/-- The truncation works on what it may: after its pull has ended, and on absorbed
    operations, with the rows they touched when it looked. -/
def Cycle.Sound (cycle : Cycle) : Prop :=
  match cycle.stage with
  | .pulling _ | .left => True
  | .retiring message_cursor entry touched _ =>
    cycle.completed = true ∧ absorbed cycle.cycle_started_mono message_cursor entry = true ∧
      ∃ seen, touched = touchedRows seen entry.operation
  | _ => cycle.completed = true

/-- Stored as settled, by a marker that the start-time rule accepts. -/
def ListedAt (store : DatabaseStore) (cycle : Cycle) (entry : SettledOperation) : Prop :=
  ∃ row ∈ store.outbox.rows, row.operation.state = .Applied ∧ row.id = entry.operation.id ∧
    startedAfter cycle.cycle_started_mono row.settled_at_mono = true

/-- What any step of a cycle but a settlement does. -/
structure Progress (store : DatabaseStore) (cycle : Cycle) (after : DatabaseStore) (moved : Cycle) : Prop where
  keeps : KeepsSettled store after
  started : moved.cycle_started_mono = cycle.cycle_started_mono
  settled : moved.settled = cycle.settled
  entries : ∀ entry ∈ moved.byStart, entry ∈ cycle.byStart ∨ ListedAt store cycle entry
  sound : cycle.Sound → moved.Sound

/-- Everything one step can do. -/
inductive Move (process : Process) : Action → Process → Prop where
  | ticked {now : Int} (hclock : process.clock ≤ now) : Move process (.tick now) { process with clock := now }
  | wrote {write : Write} (hbeside : write.beside = true) :
      Move process (.write write) { process with store := Write.apply process.store write }
  | entered : Move process .enter { process with
      cycles := process.cycles ++
        [{ cycle_started_mono := process.clock, stage := .pulling none, completed := false, settled := [] }] }
  | progressed {index : Nat} {cycle moved : Cycle} {action : CycleAction} {after : DatabaseStore}
      (hcycle : process.cycles[index]? = some cycle) (hprogress : Progress process.store cycle after moved) :
      Move process (.cycle index action) (process.put index after moved)
  | settled {index : Nat} {cycle : Cycle} {id : OperationId} {watermark : Option String} {now : Timestamp}
      (hcycle : process.cycles[index]? = some cycle) (hheld : cycle.held = some id) :
      Move process (.cycle index (.settle watermark now)) (process.settled index cycle id watermark now)

section Steps

variable {process after : Process} {index : Nat} {cycle : Cycle}

theorem keepsSettled_refl (store : DatabaseStore) : KeepsSettled store store := fun _ hrow _ => hrow

/-- A stage that owes nothing by its start alone. -/
private theorem progress_of_idle {store after : DatabaseStore} {moved : Cycle} (hkeeps : KeepsSettled store after)
    (hstarted : moved.cycle_started_mono = cycle.cycle_started_mono) (hsettled : moved.settled = cycle.settled)
    (hidle : moved.byStart = []) (hsound : cycle.Sound → moved.Sound) : Progress store cycle after moved := by
  refine ⟨hkeeps, hstarted, hsettled, ?_, hsound⟩
  rw [hidle]
  exact fun _ hmem => absurd hmem List.not_mem_nil

private theorem progress_listSettled {store : DatabaseStore} (hstage : cycle.stage = .pulled) :
    Progress store cycle store { cycle with stage := .listed store.outbox.list_settled_operations } := by
  refine ⟨keepsSettled_refl store, rfl, rfl, fun entry hentry => Or.inr ?_, ?_⟩
  · obtain ⟨hlisted, hstarted⟩ := List.mem_filter.mp hentry
    obtain ⟨row, hrow, rfl⟩ := List.mem_map.mp hlisted
    obtain ⟨hstored, happlied⟩ := List.mem_filter.mp hrow
    exact ⟨row, hstored, by simpa using happlied, rfl, hstarted⟩
  · intro hsound
    unfold Cycle.Sound at hsound
    rw [hstage] at hsound
    exact hsound

private theorem progress_readCursor {store : DatabaseStore} {settled : List SettledOperation}
    (hstage : cycle.stage = .listed settled) :
    Progress store cycle store { cycle with stage := .truncating store.message_cursor settled } := by
  refine ⟨keepsSettled_refl store, rfl, rfl, fun entry hentry => Or.inl ?_, ?_⟩
  · obtain ⟨hlisted, hrule⟩ := List.mem_filter.mp hentry
    rw [Bool.and_eq_true] at hrule
    unfold Cycle.byStart
    rw [hstage]
    exact List.mem_filter.mpr ⟨hlisted, hrule.1⟩
  · intro hsound
    unfold Cycle.Sound at hsound
    rw [hstage] at hsound
    exact hsound

private theorem progress_truncating {store after : DatabaseStore} {message_cursor : Option String}
    {settled rest : List SettledOperation} (hkeeps : KeepsSettled store after)
    (hentries : cycle.byStart = settled.filter fun entry =>
      startedAfter cycle.cycle_started_mono entry.settled_at_mono && !watermarkReached message_cursor entry)
    (hrest : rest ⊆ settled) (hcompleted : cycle.Sound → cycle.completed = true) :
    Progress store cycle after { cycle with stage := .truncating message_cursor rest } := by
  refine ⟨hkeeps, rfl, rfl, fun entry hentry => Or.inl ?_, hcompleted⟩
  obtain ⟨hmem, hrule⟩ := List.mem_filter.mp hentry
  rw [hentries]
  exact List.mem_filter.mpr ⟨hrest hmem, hrule⟩

/-- The step was progress of that cycle. -/
def Process.Progresses (process : Process) (index : Nat) (cycle : Cycle) (after : Process) : Prop :=
  ∃ store moved, Progress process.store cycle store moved ∧ after = process.put index store moved

private theorem progresses_claim {id : OperationId} {now : Timestamp}
    (hstep : process.claim index cycle id now = some after) : process.Progresses index cycle after := by
  unfold Process.claim at hstep
  split at hstep
  · split_ifs at hstep
    obtain rfl := Option.some.inj hstep
    refine ⟨_, _, ?_, rfl⟩
    exact progress_of_idle (keepsSettled_claim now) rfl rfl rfl fun _ => trivial
  · cases hstep

private theorem progresses_release (hstep : process.release index cycle = some after) :
    process.Progresses index cycle after := by
  obtain ⟨id, _, rfl⟩ := Option.map_eq_some_iff.mp hstep
  refine ⟨_, _, ?_, rfl⟩
  exact progress_of_idle (keepsSettled_refl _) rfl rfl rfl fun _ => trivial

private theorem progresses_pull {write : Write} (hstep : process.pull index cycle write = some after) :
    process.Progresses index cycle after := by
  unfold Process.pull at hstep
  split at hstep
  · rename_i held hstage
    split_ifs at hstep with hpulling
    obtain rfl := Option.some.inj hstep
    have hidle : cycle.byStart = [] := by
      unfold Cycle.byStart
      rw [hstage]
    refine ⟨_, _, ?_, rfl⟩
    exact progress_of_idle (keepsSettled_of_pulling hpulling) rfl rfl hidle id
  · cases hstep

private theorem progresses_complete (hstep : process.complete index cycle = some after) :
    process.Progresses index cycle after := by
  unfold Process.complete at hstep
  split at hstep
  · obtain rfl := Option.some.inj hstep
    refine ⟨_, _, ?_, rfl⟩
    exact progress_of_idle (keepsSettled_refl _) rfl rfl rfl fun _ => rfl
  · cases hstep

private theorem progresses_listSettled (hstep : process.listSettled index cycle = some after) :
    process.Progresses index cycle after := by
  unfold Process.listSettled at hstep
  split at hstep
  · rename_i hstage
    obtain rfl := Option.some.inj hstep
    exact ⟨_, _, progress_listSettled hstage, rfl⟩
  · cases hstep

private theorem progresses_readCursor (hstep : process.readCursor index cycle = some after) :
    process.Progresses index cycle after := by
  unfold Process.readCursor at hstep
  split at hstep
  · rename_i settled hstage
    obtain rfl := Option.some.inj hstep
    exact ⟨_, _, progress_readCursor hstage, rfl⟩
  · cases hstep

private theorem progresses_next (hstep : process.next index cycle = some after) :
    process.Progresses index cycle after := by
  unfold Process.next at hstep
  split at hstep
  · rename_i message_cursor entry rest hstage
    have hentries : cycle.byStart = (entry :: rest).filter fun entry =>
        startedAfter cycle.cycle_started_mono entry.settled_at_mono && !watermarkReached message_cursor entry := by
      unfold Cycle.byStart
      rw [hstage]
    have hcompleted : cycle.Sound → cycle.completed = true := by
      intro hsound
      unfold Cycle.Sound at hsound
      rw [hstage] at hsound
      exact hsound
    split_ifs at hstep with habsorbed
    · obtain rfl := Option.some.inj hstep
      refine ⟨_, _, ?_, rfl⟩
      refine ⟨keepsSettled_refl _, rfl, rfl, fun chosen hchosen => Or.inl ?_, fun hsound => ?_⟩
      · rw [hentries]
        exact hchosen
      · exact ⟨hcompleted hsound, habsorbed, process.store, rfl⟩
    · obtain rfl := Option.some.inj hstep
      refine ⟨_, _, ?_, rfl⟩
      exact progress_truncating (keepsSettled_refl _) hentries (List.subset_cons_self _ _) hcompleted
  · cases hstep

private theorem progresses_retire (hstep : process.retire index cycle = some after) :
    process.Progresses index cycle after := by
  unfold Process.retire at hstep
  split at hstep
  · rename_i message_cursor entry touched rest hstage
    obtain ⟨diffs, store, hrun, hretired⟩ | ⟨error, hrun⟩ := retire_cases entry.operation.id touched process.store
    · rw [hrun] at hstep
      obtain rfl := Option.some.inj hstep
      refine ⟨store, _, ?_, rfl⟩
      apply @progress_truncating cycle process.store store message_cursor (entry :: rest) rest
      · exact keepsSettled_of_retired hretired
      · unfold Cycle.byStart
        rw [hstage]
      · exact List.subset_cons_self _ _
      · intro hsound
        unfold Cycle.Sound at hsound
        rw [hstage] at hsound
        exact hsound.1
    · rw [hrun] at hstep
      obtain rfl := Option.some.inj hstep
      refine ⟨process.store, { cycle with stage := .left }, ?_, rfl⟩
      exact progress_of_idle (keepsSettled_refl _) rfl rfl rfl fun _ => trivial
  · cases hstep

/-- A step of a cycle settles its claimed operation or makes progress. -/
theorem cycleStep_cases {action : CycleAction} (hstep : process.cycleStep index cycle action = some after) :
    (∃ id watermark now, action = .settle watermark now ∧ cycle.held = some id ∧
        after = process.settled index cycle id watermark now) ∨ process.Progresses index cycle after := by
  cases action with
  | claim id now => exact Or.inr (progresses_claim hstep)
  | settle watermark now =>
    obtain ⟨id, hheld, rfl⟩ := Option.map_eq_some_iff.mp hstep
    exact Or.inl ⟨id, watermark, now, rfl, hheld, rfl⟩
  | release => exact Or.inr (progresses_release hstep)
  | pull write => exact Or.inr (progresses_pull hstep)
  | complete => exact Or.inr (progresses_complete hstep)
  | listSettled => exact Or.inr (progresses_listSettled hstep)
  | readCursor => exact Or.inr (progresses_readCursor hstep)
  | next => exact Or.inr (progresses_next hstep)
  | retire => exact Or.inr (progresses_retire hstep)
  | leave =>
    obtain rfl := Option.some.inj hstep
    refine Or.inr ⟨_, _, ?_, rfl⟩
    exact progress_of_idle (keepsSettled_refl _) rfl rfl rfl fun _ => trivial

/-- A cycle that holds a claim owes nothing to its truncation. -/
theorem byStart_of_held {id : OperationId} (hheld : cycle.held = some id) : cycle.byStart = [] := by
  unfold Cycle.held at hheld
  unfold Cycle.byStart
  cases hstage : cycle.stage with
  | pulling | pulled | left => rfl
  | listed | truncating | retiring =>
    rw [hstage] at hheld
    cases hheld

theorem move_of_step {action : Action} (hstep : process.step action = some after) : Move process action after := by
  cases action with
  | tick now =>
    simp only [Process.step] at hstep
    split_ifs at hstep with hclock
    obtain rfl := Option.some.inj hstep
    exact .ticked hclock
  | write write =>
    simp only [Process.step] at hstep
    split_ifs at hstep with hbeside
    obtain rfl := Option.some.inj hstep
    exact .wrote hbeside
  | enter =>
    obtain rfl := Option.some.inj hstep
    exact .entered
  | cycle index action =>
    simp only [Process.step] at hstep
    cases hcycle : process.cycles[index]? with
    | none =>
      simp only [hcycle] at hstep
      cases hstep
    | some cycle =>
      simp only [hcycle] at hstep
      obtain ⟨id, watermark, now, rfl, hheld, rfl⟩ | ⟨store, moved, hprogress, rfl⟩ := cycleStep_cases hstep
      · exact .settled hcycle hheld
      · exact .progressed hcycle hprogress

end Steps

/-- The settlements of the operation so far all came before that moment. -/
def Process.SettledBefore (process : Process) (id : OperationId) (moment : Int) : Prop :=
  ∀ settlement ∈ process.settlements, settlement.id = id → settlement.settled_at_mono < moment

/-- The order of settlements and cycles, as the markers in the log keep it. -/
structure Timed (process : Process) : Prop where
  /-- No cycle started in the future. -/
  cycles : ∀ cycle ∈ process.cycles, cycle.cycle_started_mono ≤ process.clock
  /-- Nothing settled in the future. -/
  settlements : ∀ settlement ∈ process.settlements, settlement.settled_at_mono ≤ process.clock
  /-- The marker of a settled row is as late as each of its settlements. -/
  marked : ∀ row ∈ process.store.outbox.rows, row.operation.state = .Applied →
    ∀ settlement ∈ process.settlements, settlement.id = row.id →
      ∃ settled_at_mono, row.settled_at_mono = some settled_at_mono ∧ settlement.settled_at_mono ≤ settled_at_mono
  /-- What a cycle settled, it settled after it had started. -/
  own : ∀ cycle ∈ process.cycles, ∀ id ∈ cycle.settled,
    ∃ settlement ∈ process.settlements, settlement.id = id ∧ cycle.cycle_started_mono ≤ settlement.settled_at_mono
  /-- A cycle's start does not retire what it settled itself. -/
  kept : ∀ cycle ∈ process.cycles, ∀ entry ∈ cycle.byStart, entry.operation.id ∉ cycle.settled
  sound : ∀ cycle ∈ process.cycles, cycle.Sound

section Invariant

variable {process after : Process} {index : Nat} {cycle moved : Cycle} {store : DatabaseStore}

/-- A marker the start-time rule accepts is later than every settlement of its row. -/
theorem Timed.settledBefore_of_listed (htimed : Timed process) {entry : SettledOperation}
    (hlisted : ListedAt process.store cycle entry) :
    process.SettledBefore entry.operation.id cycle.cycle_started_mono := by
  obtain ⟨row, hrow, happlied, hid, hstarted⟩ := hlisted
  intro settlement hmem hsettled
  obtain ⟨settled_at_mono, hmarker, hle⟩ := htimed.marked row hrow happlied settlement hmem (hsettled.trans hid.symm)
  unfold startedAfter at hstarted
  rw [hmarker] at hstarted
  have hlt : settled_at_mono < cycle.cycle_started_mono := by simpa using hstarted
  omega

/-- Such a row is not one the cycle settled itself. -/
theorem Timed.not_own_of_listed (htimed : Timed process) (hcycle : cycle ∈ process.cycles) {entry : SettledOperation}
    (hlisted : ListedAt process.store cycle entry) : entry.operation.id ∉ cycle.settled := by
  intro hown
  obtain ⟨settlement, hmem, hid, hle⟩ := htimed.own cycle hcycle entry.operation.id hown
  have hlt := htimed.settledBefore_of_listed hlisted settlement hmem hid
  omega

/-- Progress of one cycle keeps the order. -/
theorem Timed.put (htimed : Timed process) (hcycle : process.cycles[index]? = some cycle)
    (hprogress : Progress process.store cycle store moved) : Timed (process.put index store moved) := by
  have hstored : cycle ∈ process.cycles := List.mem_of_getElem? hcycle
  refine ⟨fun other hother => ?_, htimed.settlements, fun row hrow happlied => ?_, fun other hother => ?_,
    fun other hother => ?_, fun other hother => ?_⟩
  · obtain hother | rfl := List.mem_or_eq_of_mem_set hother
    · exact htimed.cycles other hother
    · rw [hprogress.started]
      exact htimed.cycles cycle hstored
  · exact htimed.marked row (hprogress.keeps row hrow happlied) happlied
  · obtain hother | rfl := List.mem_or_eq_of_mem_set hother
    · exact htimed.own other hother
    · rw [hprogress.settled, hprogress.started]
      exact htimed.own cycle hstored
  · obtain hother | rfl := List.mem_or_eq_of_mem_set hother
    · exact htimed.kept other hother
    · intro entry hentry
      rw [hprogress.settled]
      obtain hentry | hlisted := hprogress.entries entry hentry
      · exact htimed.kept cycle hstored entry hentry
      · exact htimed.not_own_of_listed hstored hlisted
  · obtain hother | rfl := List.mem_or_eq_of_mem_set hother
    · exact htimed.sound other hother
    · exact hprogress.sound (htimed.sound cycle hstored)

theorem settled_of_absent {id : OperationId} {watermark : Option String} {now : Timestamp}
    (habsent : (process.store.outbox.get_operation id).isSome ≠ true) :
    process.settled index cycle id watermark now =
      process.put index (Write.apply process.store (.settle id process.clock watermark now)) cycle := by
  unfold Process.settled
  rw [if_neg habsent]

/-- A settlement keeps the order: it is stamped with the present moment. -/
theorem Timed.settled (htimed : Timed process) {id : OperationId} {watermark : Option String} {now : Timestamp}
    (hcycle : process.cycles[index]? = some cycle) (hheld : cycle.held = some id) :
    Timed (process.settled index cycle id watermark now) := by
  have hstored : cycle ∈ process.cycles := List.mem_of_getElem? hcycle
  by_cases hpresent : (process.store.outbox.get_operation id).isSome = true
  · unfold Process.settled
    rw [if_pos hpresent]
    refine ⟨fun other hother => ?_, fun settlement hmem => ?_, fun row hrow happlied settlement hmem hid => ?_,
      fun other hother => ?_, fun other hother => ?_, fun other hother => ?_⟩
    · obtain hother | rfl := List.mem_or_eq_of_mem_set hother
      · exact htimed.cycles other hother
      · exact htimed.cycles cycle hstored
    · obtain rfl | hmem := List.mem_cons.mp hmem
      · exact le_refl _
      · exact htimed.settlements settlement hmem
    · obtain ⟨hrowId, hmarker⟩ | ⟨hrowId, hrow⟩ := rows_of_settle hrow
      · refine ⟨process.clock, hmarker, ?_⟩
        obtain rfl | hmem := List.mem_cons.mp hmem
        · exact le_refl _
        · exact htimed.settlements settlement hmem
      · obtain rfl | hmem := List.mem_cons.mp hmem
        · exact absurd hid.symm hrowId
        · exact htimed.marked row hrow happlied settlement hmem hid
    · intro settledId hsettled
      obtain hother | rfl := List.mem_or_eq_of_mem_set hother
      · obtain ⟨settlement, hmem, hid, hle⟩ := htimed.own other hother settledId hsettled
        exact ⟨settlement, List.mem_cons_of_mem _ hmem, hid, hle⟩
      · obtain rfl | hsettled := List.mem_cons.mp hsettled
        · exact ⟨⟨settledId, process.clock⟩, List.mem_cons_self, rfl, htimed.cycles cycle hstored⟩
        · obtain ⟨settlement, hmem, hid, hle⟩ := htimed.own cycle hstored settledId hsettled
          exact ⟨settlement, List.mem_cons_of_mem _ hmem, hid, hle⟩
    · obtain hother | rfl := List.mem_or_eq_of_mem_set hother
      · exact htimed.kept other hother
      · intro entry hentry
        have hnone : entry ∈ cycle.byStart := hentry
        rw [byStart_of_held hheld] at hnone
        exact absurd hnone List.not_mem_nil
    · obtain hother | rfl := List.mem_or_eq_of_mem_set hother
      · exact htimed.sound other hother
      · exact htimed.sound cycle hstored
  · rw [settled_of_absent hpresent]
    refine htimed.put hcycle ⟨keepsSettled_settle_of_absent hpresent, rfl, rfl, ?_, fun hsound => hsound⟩
    exact fun entry hentry => Or.inl hentry

/-- Every step keeps the order. -/
theorem Timed.move (htimed : Timed process) {action : Action} (hmove : Move process action after) : Timed after := by
  cases hmove with
  | ticked hclock =>
    refine ⟨fun cycle hcycle => ?_, fun settlement hmem => ?_, htimed.marked, htimed.own, htimed.kept, htimed.sound⟩
    · exact le_trans (htimed.cycles cycle hcycle) hclock
    · exact le_trans (htimed.settlements settlement hmem) hclock
  | wrote hbeside =>
    refine ⟨htimed.cycles, htimed.settlements, fun row hrow happlied => ?_, htimed.own, htimed.kept, htimed.sound⟩
    exact htimed.marked row (keepsSettled_of_pulling (Write.pulling_of_beside hbeside) row hrow happlied) happlied
  | entered =>
    refine ⟨fun cycle hcycle => ?_, htimed.settlements, htimed.marked, fun cycle hcycle => ?_,
      fun cycle hcycle => ?_, fun cycle hcycle => ?_⟩
    all_goals obtain hcycle | hcycle := List.mem_append.mp hcycle
    · exact htimed.cycles cycle hcycle
    · rw [List.mem_singleton.mp hcycle]
    · exact htimed.own cycle hcycle
    · rw [List.mem_singleton.mp hcycle]
      exact fun _ hmem => absurd hmem List.not_mem_nil
    · exact htimed.kept cycle hcycle
    · rw [List.mem_singleton.mp hcycle]
      exact fun _ hmem => absurd hmem List.not_mem_nil
    · exact htimed.sound cycle hcycle
    · rw [List.mem_singleton.mp hcycle]
      trivial
  | progressed hcycle hprogress => exact htimed.put hcycle hprogress
  | settled hcycle hheld => exact htimed.settled hcycle hheld

theorem timed_of_begins (hbegins : process.Begins) : Timed process := by
  obtain ⟨hcycles, hsettlements⟩ := hbegins
  refine ⟨?_, ?_, ?_, ?_, ?_, ?_⟩
  all_goals simp only [hcycles, hsettlements, List.not_mem_nil, false_implies, implies_true]

/-- In every run of the process the markers keep the order of settlements and cycles. -/
theorem timed_of_reachable {guard : Process → Action → Prop} (hreach : processSystem.Reachable guard process) :
    Timed process := by
  refine hreach.invariant ?_ ?_
  · exact fun before hbegins => @timed_of_begins before hbegins
  · intro before action after htimed _ hstep
    exact htimed.move (move_of_step hstep)

end Invariant

/-- No step settles an operation that some truncation has listed as settled and
    is still to retire by its start alone. -/
def settlesApart (process : Process) : Action → Bool
  | .cycle index (.settle _ _) =>
    match (process.cycles[index]?).bind Cycle.held with
    | some id => process.cycles.all fun cycle => cycle.byStart.all fun entry => entry.operation.id != id
    | none => true
  | _ => true

/-- What a truncation is to retire by its start alone settled before that start. -/
def StartsAfter (process : Process) : Prop :=
  ∀ cycle ∈ process.cycles, ∀ entry ∈ cycle.byStart,
    process.SettledBefore entry.operation.id cycle.cycle_started_mono

section Order

variable {process after : Process} {index : Nat} {cycle moved : Cycle} {store : DatabaseStore}

private theorem startsAfter_put (htimed : Timed process) (hstarts : StartsAfter process)
    (hcycle : process.cycles[index]? = some cycle) (hprogress : Progress process.store cycle store moved) :
    StartsAfter (process.put index store moved) := by
  intro other hother entry hentry
  obtain hother | rfl := List.mem_or_eq_of_mem_set hother
  · exact hstarts other hother entry hentry
  · show process.SettledBefore entry.operation.id _
    rw [hprogress.started]
    obtain hentry | hlisted := hprogress.entries entry hentry
    · exact hstarts cycle (List.mem_of_getElem? hcycle) entry hentry
    · exact htimed.settledBefore_of_listed hlisted

private theorem startsAfter_settled (hstarts : StartsAfter process) {id : OperationId} {watermark : Option String}
    {now : Timestamp} (hcycle : process.cycles[index]? = some cycle) (hheld : cycle.held = some id)
    (hapart : settlesApart process (.cycle index (.settle watermark now)) = true) :
    StartsAfter (process.settled index cycle id watermark now) := by
  simp only [settlesApart, hcycle, Option.bind_some, hheld, List.all_eq_true, bne_iff_ne] at hapart
  have hidle : cycle.byStart = [] := byStart_of_held hheld
  intro other hother entry hentry settlement hmem hsettled
  have hbefore : other ∈ process.cycles ∨ other.byStart = [] := by
    unfold Process.settled at hother
    split_ifs at hother
    · obtain hother | rfl := List.mem_or_eq_of_mem_set hother
      · exact Or.inl hother
      · exact Or.inr hidle
    · obtain hother | rfl := List.mem_or_eq_of_mem_set hother
      · exact Or.inl hother
      · exact Or.inr hidle
  obtain hknown | hnone := hbefore
  · have hold : settlement ∈ process.settlements ∨ settlement.id = id := by
      unfold Process.settled at hmem
      split_ifs at hmem
      · obtain rfl | hmem := List.mem_cons.mp hmem
        · exact Or.inr rfl
        · exact Or.inl hmem
      · exact Or.inl hmem
    obtain hmem | hsame := hold
    · exact hstarts other hknown entry hentry settlement hmem hsettled
    · exact absurd (hsettled.symm.trans hsame) (hapart other hknown entry hentry)
  · rw [hnone] at hentry
    exact absurd hentry List.not_mem_nil

private theorem startsAfter_move (htimed : Timed process) (hstarts : StartsAfter process) {action : Action}
    (hapart : settlesApart process action = true) (hmove : Move process action after) : StartsAfter after := by
  cases hmove with
  | ticked => exact hstarts
  | wrote => exact hstarts
  | entered =>
    intro cycle hcycle entry hentry
    obtain hcycle | hcycle := List.mem_append.mp hcycle
    · exact hstarts cycle hcycle entry hentry
    · rw [List.mem_singleton.mp hcycle] at hentry
      exact absurd hentry List.not_mem_nil
  | progressed hcycle hprogress => exact startsAfter_put htimed hstarts hcycle hprogress
  | settled hcycle hheld => exact startsAfter_settled hstarts hcycle hheld hapart

theorem startsAfter_of_reachable
    (hreach : processSystem.Reachable (fun process action => settlesApart process action = true) process) :
    StartsAfter process := by
  refine hreach.invariant_of (fun _ hknown => timed_of_reachable hknown) ?_ ?_
  · intro before hbegins cycle hcycle
    obtain ⟨hcycles, _⟩ := hbegins
    rw [hcycles] at hcycle
    exact absurd hcycle List.not_mem_nil
  · intro before action after htimed hstarts hapart hstep
    exact startsAfter_move htimed hstarts hapart (move_of_step hstep)

end Order

/-- What a cycle's own flush settled, the cycle's start-time rule does not reach:
    neither the stored marker nor what its truncation has listed. -/
def Cycle.SparesOwn (cycle : Cycle) (store : DatabaseStore) : Prop :=
  ∀ id ∈ cycle.settled,
    (∀ row ∈ store.outbox.rows, row.id = id → row.operation.state = .Applied →
      startedAfter cycle.cycle_started_mono row.settled_at_mono = false) ∧
    ∀ entry ∈ cycle.byStart, entry.operation.id ≠ id

/-- One removal by truncation: in a cycle whose pull has ended, of an operation its
    rules absorb; each row it read the operation to touch is folded again. -/
structure Removal (process after : Process) (cycle : Cycle) (message_cursor : Option String) (entry : SettledOperation)
    (touched : List MessageId) : Prop where
  completed : cycle.completed = true
  absorbed : absorbed cycle.cycle_started_mono message_cursor entry = true
  removed : after.store.outbox = process.store.outbox.remove_operation entry.operation.id
  read : ∃ seen, touched = touchedRows seen entry.operation
  folded : ∀ row ∈ touched, FoldedAt after.store row

/-- A removal whose cycle started after every settlement of the operation, or read
    the operation's watermark as the stored cursor. -/
structure CausalRemoval (process after : Process) (cycle : Cycle) (message_cursor : Option String)
    (entry : SettledOperation) (touched : List MessageId) : Prop
    extends Removal process after cycle message_cursor entry touched where
  causal : process.SettledBefore entry.operation.id cycle.cycle_started_mono ∨
    watermarkReached message_cursor entry = true

section Claim

variable {process after : Process} {index : Nat}

theorem sparesOwn_of_timed (htimed : Timed process) {cycle : Cycle} (hcycle : cycle ∈ process.cycles) :
    cycle.SparesOwn process.store := by
  intro id hown
  refine ⟨fun row hrow hid happlied => ?_, fun entry hentry hid => ?_⟩
  · obtain ⟨settlement, hmem, hsettled, hle⟩ := htimed.own cycle hcycle id hown
    obtain ⟨settled_at_mono, hmarker, hlate⟩ := htimed.marked row hrow happlied settlement hmem (hsettled.trans hid.symm)
    unfold startedAfter
    rw [hmarker]
    have hnot : ¬ settled_at_mono < cycle.cycle_started_mono := by omega
    exact decide_eq_false hnot
  · rw [← hid] at hown
    exact htimed.kept cycle hcycle entry hentry hown

/-- In every run a retirement removes what its cycle may, or changes nothing. -/
theorem removal_of_retire {guard : Process → Action → Prop} (hreach : processSystem.Reachable guard process)
    (hstep : process.step (.cycle index .retire) = some after) :
    after.store = process.store ∨
      ∃ cycle message_cursor entry touched rest, process.cycles[index]? = some cycle ∧
        cycle.stage = .retiring message_cursor entry touched rest ∧
        Removal process after cycle message_cursor entry touched := by
  simp only [Process.step] at hstep
  cases hcycle : process.cycles[index]? with
  | none =>
    simp only [hcycle] at hstep
    cases hstep
  | some cycle =>
    simp only [hcycle, Process.cycleStep, Process.retire] at hstep
    split at hstep
    · rename_i message_cursor entry touched rest hstage
      have hsound := (timed_of_reachable hreach).sound cycle (List.mem_of_getElem? hcycle)
      unfold Cycle.Sound at hsound
      rw [hstage] at hsound
      obtain ⟨hcompleted, habsorbed, hread⟩ := hsound
      obtain ⟨diffs, store, hrun, hretired⟩ | ⟨error, hrun⟩ := retire_cases entry.operation.id touched process.store
      · rw [hrun] at hstep
        obtain rfl := Option.some.inj hstep
        refine Or.inr ⟨cycle, message_cursor, entry, touched, rest, rfl, hstage, ?_⟩
        exact ⟨hcompleted, habsorbed, hretired.outbox, hread, hretired.folded⟩
      · rw [hrun] at hstep
        obtain rfl := Option.some.inj hstep
        exact Or.inl rfl
    · cases hstep

end Claim

/-- A process on a fresh store, before its first cycle. -/
def Process.fresh : Process where
  store := DatabaseStore.empty
  clock := 0
  cycles := []
  settlements := []

/-- What a run of actions, each with its guard checked, leaves of the fresh process. -/
def Process.ran (guard : Process → Action → Bool) (actions : List Action) : Process :=
  (TransitionSystem.runActions Process.step guard .fresh actions).getD .fresh

theorem reachable_ran {guard : Process → Action → Bool} {actions : List Action}
    (hruns : (TransitionSystem.runActions Process.step guard .fresh actions).isSome = true) :
    processSystem.Reachable (fun process action => guard process action = true) (Process.ran guard actions) := by
  obtain ⟨after, hrun⟩ := Option.isSome_iff_exists.mp hruns
  have hran : Process.ran guard actions = after := by
    unfold Process.ran
    rw [hrun]
    rfl
  rw [hran]
  exact TransitionSystem.reachable_of_runActions (fun _ _ hcheck => hcheck) (.start ⟨rfl, rfl⟩) hrun

/-- A message removal waits in the log. -/
def queuedRemoval : Operation :=
  newOperation "o1" ⟨.Message, "m1"⟩ .Destroy .null none none "2026-01-01T00:00:00Z"

def cycleActions (index : Nat) (actions : List CycleAction) : List Action := actions.map (.cycle index)

/-- A cycle settles the removal, keeps it and ends; the next cycle, a second later, is about to retire it. -/
def settledThenSwept : List Action :=
  [.write (.enqueue queuedRemoval), .enter] ++
    cycleActions 0 [.claim "o1" "2026-01-01T00:00:00Z", .settle none "2026-01-01T00:00:00Z", .release, .complete,
      .listSettled, .readCursor, .next, .leave] ++
    [.tick 1, .enter] ++ cycleActions 1 [.complete, .listSettled, .readCursor, .next]

/-- What the truncation is about to retire, and whether its watermark is reached. -/
def Cycle.retiring (cycle : Cycle) : Option (OperationId × Bool) :=
  match cycle.stage with
  | .retiring message_cursor entry _ _ => some (entry.operation.id, watermarkReached message_cursor entry)
  | _ => none

theorem stage_of_retiring {cycle : Cycle} {id : OperationId} {reached : Bool}
    (hretiring : cycle.retiring = some (id, reached)) :
    ∃ message_cursor entry touched rest, cycle.stage = .retiring message_cursor entry touched rest ∧
      entry.operation.id = id ∧ watermarkReached message_cursor entry = reached := by
  unfold Cycle.retiring at hretiring
  split at hretiring
  · rename_i message_cursor entry touched rest hstage
    obtain ⟨hid, hreached⟩ := Prod.mk.inj (Option.some.inj hretiring)
    exact ⟨message_cursor, entry, touched, rest, hstage, hid, hreached⟩
  · cases hretiring

/-- Two overlapping cycles push the removal. It settles in the first; a third cycle
    starts and lists it; it settles again in the second; the third is about to retire it. -/
def settledBehindListing : List Action :=
  [.write (.enqueue queuedRemoval), .enter, .enter] ++
    [.cycle 0 (.claim "o1" "2026-01-01T00:00:00Z"), .cycle 1 (.claim "o1" "2026-01-01T00:00:00Z"),
      .cycle 0 (.settle none "2026-01-01T00:00:00Z"), .cycle 0 .release, .tick 1, .enter] ++
    cycleActions 2 [.complete, .listSettled] ++ [.tick 2, .cycle 1 (.settle none "2026-01-01T00:00:02Z")] ++
    cycleActions 2 [.readCursor, .next]

end posthaste.convergence
