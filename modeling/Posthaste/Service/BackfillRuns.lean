import Mathlib.Algebra.GroupWithZero.Nat
import Mathlib.Algebra.Order.BigOperators.Group.List
import Posthaste.Service.BackfillScan

open posthaste.model posthaste.store effects

namespace posthaste.service

open MailService

/-- A batch of the job that ran, with the service before and after it. -/
structure BatchRun where
  observation : Observation
  before : BackfillService
  outcome : AutomationBackfillBatchOutcome
  after : BackfillService

/-- Batches that ran one after the other, with no other writer between them. -/
inductive Runs (backfill : Backfill) : BackfillService → List BatchRun → BackfillService → Prop where
  | nil {service : BackfillService} : Runs backfill service [] service
  | cons {batch : BatchRun} {rest : List BatchRun} {last : BackfillService}
      (hbatch : backfill.process_automation_backfill_job_batch batch.observation batch.before =
        (.ok batch.outcome, batch.after))
      (hran : batch.outcome.ran = true) (hrest : Runs backfill batch.after rest last) :
      Runs backfill batch.before (batch :: rest) last

namespace BatchRun

variable (backfill : Backfill) (batch : BatchRun)

/-- The store between the scan and the observation of the provider. -/
def filled : DatabaseStore := final (backfill.scan.run batch.before.store)

/-- The observation left the message as the scan had made it: its pushes succeeded, and nobody else wrote it. -/
def Held (id : MessageId) : Prop :=
  backfill.reading.served batch.after.store id = backfill.reading.served (batch.filled backfill) id

/-- The batch left the job completed. -/
def Completes : Prop :=
  ∃ rule_fingerprint, backfill.automation_backfill_fingerprint = .ok (some rule_fingerprint) ∧
    batch.after.status rule_fingerprint = some .Completed

/-- A batch that completes the job leaves no message that matches, of those it held. -/
def Finishes : Prop :=
  batch.Completes backfill → ∀ id, batch.Held backfill id → ∀ pair ∈ pairsOf backfill.eligible,
    backfill.reading.matchesPair batch.after.store id pair = false

/-- What a batch must not run into: a mutation that makes its message match a pair asked before, and a full batch
    whose pushes are all rejected. Every other message is held. -/
structure Undisturbed (rejected : List MessageId) : Prop where
  mailbox : batch.after.store.mailbox = batch.before.store.mailbox
  held : ∀ id ∉ rejected, batch.Held backfill id
  harmless : ∀ act ∈ batch.outcome.queued, act.Harmless backfill.reading
  accepted : batch.outcome.has_more = true → ∃ act ∈ batch.outcome.queued, act.message_id ∉ rejected

end BatchRun

section Batches

variable {backfill : Backfill} {batch : BatchRun} {service : BackfillService} {rule_fingerprint : String}

theorem store_ensure (now : Timestamp) :
    (service.ensure_automation_backfill_job rule_fingerprint now).store = service.store := by
  unfold BackfillService.ensure_automation_backfill_job
  cases service.automation_backfill_job.lookup rule_fingerprint <;> rfl

theorem status_complete {status : AutomationBackfillJobStatus} (hstatus : service.status rule_fingerprint = some status)
    (now : Timestamp) :
    (service.complete_automation_backfill_job rule_fingerprint now).status rule_fingerprint = some .Completed ∧
      (service.complete_automation_backfill_job rule_fingerprint now).store = service.store := by
  obtain ⟨job, hjob, -⟩ := Option.map_eq_some_iff.mp hstatus
  unfold BackfillService.complete_automation_backfill_job BackfillService.updateJob
  rw [hjob]
  refine ⟨?_, rfl⟩
  unfold BackfillService.status
  rw [AList.lookup_insert]
  rfl

/-- A batch that ran is a scan and an observation, and completes the job unless it reports more. -/
theorem scanned_of_process
    (hbatch : backfill.process_automation_backfill_job_batch batch.observation batch.before =
      (.ok batch.outcome, batch.after)) (hran : batch.outcome.ran = true) :
    ∃ state filled rule_fingerprint, backfill.scan.run batch.before.store = .ok state filled ∧
      (flush_and_observe batch.observation).run filled = .ok () batch.after.store ∧
      batch.outcome.queued = state.queued ∧ batch.outcome.has_more = state.has_more ∧
      backfill.automation_backfill_fingerprint = .ok (some rule_fingerprint) ∧
      batch.after.status rule_fingerprint = some (if batch.outcome.has_more then .Pending else .Completed) := by
  have hnot : ∀ service : BackfillService,
      ((.ok notRun, service) : Except ServiceError AutomationBackfillBatchOutcome × BackfillService) ≠
        (.ok batch.outcome, batch.after) := by
    intro service hsame
    have hnone : notRun = batch.outcome := Except.ok.inj (Prod.mk.inj hsame).1
    rw [← hnone] at hran
    cases hran
  unfold Backfill.process_automation_backfill_job_batch at hbatch
  split_ifs at hbatch with hsize hsource
  · exact absurd hbatch (hnot _)
  · exact absurd hbatch (hnot _)
  cases hfingerprint : backfill.automation_backfill_fingerprint with
  | error error =>
    simp only [hfingerprint] at hbatch
    cases (Prod.mk.inj hbatch).1
  | ok found =>
    cases found with
    | none =>
      simp only [hfingerprint] at hbatch
      exact absurd hbatch (hnot _)
    | some rule_fingerprint =>
      simp only [hfingerprint] at hbatch
      set ensured := batch.before.ensure_automation_backfill_job rule_fingerprint batch.observation.now with hensured
      have hstore : ensured.store = batch.before.store := store_ensure _
      split_ifs at hbatch with hpending
      · exact absurd hbatch (hnot _)
      rw [not_not] at hpending
      unfold Backfill.runJob at hbatch
      rw [hstore] at hbatch
      cases hrun : (backfill.backfill_automation_rules_batch_with_settings batch.observation).run batch.before.store with
      | error error store =>
        simp only [hrun] at hbatch
        cases (Prod.mk.inj hbatch).1
      | ok result store =>
        obtain ⟨queued, has_more⟩ := result
        simp only [hrun] at hbatch
        obtain ⟨houtcome, hafter⟩ := Prod.mk.inj hbatch
        have houtcome := Except.ok.inj houtcome
        have hrules : (backfill.automation_rules.isEmpty || backfill.batch_size == 0) = false := by
          have hne : backfill.automation_rules.isEmpty = false := by
            rw [← Bool.not_eq_true, List.isEmpty_iff]
            intro hempty
            simp [Backfill.automation_backfill_fingerprint, Backfill.eligible, hempty] at hfingerprint
          simp [hne, hsize]
        unfold Backfill.backfill_automation_rules_batch_with_settings at hrun
        rw [hrules, if_neg Bool.false_ne_true] at hrun
        obtain ⟨state, filled, hscan, hrest⟩ := run_bind_eq_ok_iff.mp hrun
        obtain ⟨_, _, hflush, hok⟩ := run_bind_eq_ok_iff.mp hrest
        cases hok
        rw [← houtcome]
        refine ⟨state, filled, rule_fingerprint, hscan, ?_, rfl, rfl, rfl, ?_⟩
        · rw [← hafter]
          cases state.has_more with
          | true => exact hflush
          | false =>
            rw [if_neg Bool.false_ne_true, (@status_complete { ensured with store } rule_fingerprint _ hpending _).2]
            exact hflush
        · rw [← hafter]
          cases state.has_more with
          | true => exact hpending
          | false => exact (@status_complete { ensured with store } rule_fingerprint _ hpending _).1

/-- The rest of what a batch does follows from its scan. -/
theorem between_of_process (hfresh : backfill.MintsFresh) (hsize : 1 ≤ backfill.batch_size)
    (hfits : backfill.batch_size + 1 < 2 ^ 64)
    (hbatch : backfill.process_automation_backfill_job_batch batch.observation batch.before =
      (.ok batch.outcome, batch.after)) (hran : batch.outcome.ran = true) :
    ∃ state, backfill.Between batch.before.store state (batch.filled backfill) ∧
      (state.remaining ≠ 0 → state.asked = pairsOf backfill.eligible) ∧
      batch.outcome.queued = state.queued ∧ batch.outcome.has_more = state.has_more ∧
      (batch.Completes backfill ↔ batch.outcome.has_more = false) := by
  obtain ⟨state, filled, rule_fingerprint, hscan, -, hqueued, hmore, hfingerprint, hstatus⟩ :=
    scanned_of_process hbatch hran
  obtain ⟨hbetween, hasked⟩ := Backfill.between_of_scan hfresh hsize hfits hscan
  have hfilled : batch.filled backfill = filled := by
    rw [BatchRun.filled, hscan]
    rfl
  rw [hfilled]
  refine ⟨state, hbetween, hasked, hqueued, hmore, ?_⟩
  constructor
  · rintro ⟨found, hfound, hcompleted⟩
    rw [hfingerprint, Except.ok.injEq, Option.some.injEq] at hfound
    rw [← hfound, hstatus, Option.some.injEq] at hcompleted
    cases hreported : batch.outcome.has_more with
    | true =>
      rw [hreported] at hcompleted
      cases hcompleted
    | false => rfl
  · intro hreported
    refine ⟨rule_fingerprint, hfingerprint, ?_⟩
    rw [hstatus, hreported]
    rfl

variable {rejected : List MessageId}

/-- A batch that reports more is full. -/
theorem queued_of_process (hfresh : backfill.MintsFresh) (hsize : 1 ≤ backfill.batch_size)
    (hfits : backfill.batch_size + 1 < 2 ^ 64)
    (hbatch : backfill.process_automation_backfill_job_batch batch.observation batch.before =
      (.ok batch.outcome, batch.after)) (hran : batch.outcome.ran = true) (hmore : batch.outcome.has_more = true) :
    batch.outcome.queued.length = backfill.batch_size := by
  obtain ⟨state, hbetween, -, hqueued, hreported, -⟩ := between_of_process hfresh hsize hfits hbatch hran
  have hnone : state.remaining = 0 := hbetween.full.mp (hreported ▸ hmore)
  have hcounted := hbetween.counted
  rw [hqueued]
  omega

theorem finishes_of_process (hfresh : backfill.MintsFresh) (hsize : 1 ≤ backfill.batch_size)
    (hfits : backfill.batch_size + 1 < 2 ^ 64)
    (hbatch : backfill.process_automation_backfill_job_batch batch.observation batch.before =
      (.ok batch.outcome, batch.after)) (hran : batch.outcome.ran = true)
    (hundisturbed : batch.Undisturbed backfill rejected) : batch.Finishes backfill := by
  obtain ⟨state, hbetween, hasked, hqueued, hreported, hcompletes⟩ :=
    between_of_process hfresh hsize hfits hbatch hran
  intro hcompleted id hheld pair hpair
  have hless : state.has_more = false := hreported ▸ hcompletes.mp hcompleted
  have hroom : state.remaining ≠ 0 := by
    rw [Ne, ← hbetween.full, hless]
    exact Bool.false_ne_true
  have hharmless : ∀ act ∈ state.queued, act.Harmless backfill.reading := hqueued ▸ hundisturbed.harmless
  have hclean := hbetween.clean hroom hharmless pair (by rw [hasked hroom]; exact hpair) id
  have hmailbox : batch.after.store.mailbox = (batch.filled backfill).mailbox := by
    rw [hundisturbed.mailbox, hbetween.mailbox]
  rw [← hclean]
  exact selects_congr hheld hmailbox pair.1 pair.2

/-- How far the messages are through the pairs, taken together. -/
def progress (backfill : Backfill) (ids : List MessageId) (store : DatabaseStore) : Nat :=
  (ids.map (backfill.reading.lead (pairsOf backfill.eligible) store)).sum

theorem progress_le (ids : List MessageId) (store : DatabaseStore) :
    progress backfill ids store ≤ ids.length * (pairsOf backfill.eligible).length := by
  unfold progress
  have hle := List.sum_le_card_nsmul (ids.map (backfill.reading.lead (pairsOf backfill.eligible) store))
    (pairsOf backfill.eligible).length fun lead hlead => by
      obtain ⟨id, -, rfl⟩ := List.mem_map.mp hlead
      exact lead_le_length
  rwa [List.length_map, Nat.nsmul_eq_mul] at hle

/-- The messages that are not rejected and that a store may still serve. -/
def Listed (backfill : Backfill) (rejected ids : List MessageId) (store : DatabaseStore) : Prop :=
  (∀ id ∈ ids, id ∉ rejected) ∧
    ∀ id, id ∉ rejected → (backfill.reading.served store id).isSome → id ∈ ids

/-- The step of a run: a batch lets no message fall back, and one that reports more takes one further. -/
theorem progress_of_process {ids : List MessageId} (hfresh : backfill.MintsFresh) (hsize : 1 ≤ backfill.batch_size)
    (hfits : backfill.batch_size + 1 < 2 ^ 64)
    (hbatch : backfill.process_automation_backfill_job_batch batch.observation batch.before =
      (.ok batch.outcome, batch.after)) (hran : batch.outcome.ran = true)
    (hundisturbed : batch.Undisturbed backfill rejected) (hlisted : Listed backfill rejected ids batch.before.store) :
    Listed backfill rejected ids batch.after.store ∧
      progress backfill ids batch.before.store + (if batch.outcome.has_more then 1 else 0) ≤
        progress backfill ids batch.after.store := by
  obtain ⟨state, hbetween, -, hqueued, -, -⟩ := between_of_process hfresh hsize hfits hbatch hran
  have hmailbox : batch.after.store.mailbox = (batch.filled backfill).mailbox := by
    rw [hundisturbed.mailbox, hbetween.mailbox]
  have hkept : ∀ id ∉ rejected, backfill.reading.lead (pairsOf backfill.eligible) batch.after.store id =
      backfill.reading.lead (pairsOf backfill.eligible) (batch.filled backfill) id :=
    fun id hid => lead_congr (hundisturbed.held id hid) hmailbox
  have hrisen := hbetween.risen (hqueued ▸ hundisturbed.harmless)
  have hle : ∀ id ∈ ids, backfill.reading.lead (pairsOf backfill.eligible) batch.before.store id ≤
      backfill.reading.lead (pairsOf backfill.eligible) batch.after.store id := by
    intro id hid
    rw [hkept id (hlisted.1 id hid)]
    exact (hrisen id).1
  refine ⟨⟨hlisted.1, fun id hid hserved => ?_⟩, ?_⟩
  · refine hlisted.2 id hid ?_
    rw [hundisturbed.held id hid] at hserved
    by_cases hacted : ∃ act ∈ state.queued, act.message_id = id
    · obtain ⟨act, hact, rfl⟩ := hacted
      exact hbetween.there act hact
    · rwa [hbetween.untouched id fun act hact hsame => hacted ⟨act, hact, hsame⟩] at hserved
  · unfold progress
    cases hmore : batch.outcome.has_more with
    | false => simpa using List.sum_le_sum hle
    | true =>
      obtain ⟨act, hact, hnot⟩ := hundisturbed.accepted hmore
      rw [hqueued] at hact
      have hid : act.message_id ∈ ids := hlisted.2 _ hnot (hbetween.there act hact)
      have hlt := List.sum_lt_sum _ _ hle ⟨act.message_id, hid, by
        rw [hkept _ hnot]
        exact (hrisen _).2 ⟨act, hact, rfl⟩⟩
      rw [if_pos rfl]
      omega

/-- The run: the batches that report more are no more than the messages have pairs to go through. -/
theorem Runs.progress {before last : BackfillService} {batches : List BatchRun} {ids : List MessageId}
    (hfresh : backfill.MintsFresh) (hsize : 1 ≤ backfill.batch_size) (hfits : backfill.batch_size + 1 < 2 ^ 64)
    (hruns : Runs backfill before batches last) (hundisturbed : ∀ batch ∈ batches, batch.Undisturbed backfill rejected)
    (hlisted : Listed backfill rejected ids before.store) :
    progress backfill ids before.store + batches.countP (·.outcome.has_more) ≤
      ids.length * (pairsOf backfill.eligible).length := by
  induction hruns with
  | nil =>
    rw [List.countP_nil, Nat.add_zero]
    exact progress_le ids _
  | @cons batch rest last hbatch hran _ ih =>
    obtain ⟨hafter, hstep⟩ :=
      progress_of_process hfresh hsize hfits hbatch hran (hundisturbed batch List.mem_cons_self) hlisted
    have hrest := ih (fun other hother => hundisturbed other (List.mem_cons_of_mem _ hother)) hafter
    rw [List.countP_cons]
    omega

theorem Runs.each {before last : BackfillService} {batches : List BatchRun} {property : BatchRun → Prop}
    (hruns : Runs backfill before batches last)
    (hproperty : ∀ batch ∈ batches,
      backfill.process_automation_backfill_job_batch batch.observation batch.before =
        (.ok batch.outcome, batch.after) → batch.outcome.ran = true → property batch) :
    ∀ batch ∈ batches, property batch := by
  induction hruns with
  | nil => exact fun batch hbatch => absurd hbatch List.not_mem_nil
  | cons hbatch hran _ ih =>
    intro batch hmem
    rcases List.mem_cons.mp hmem with rfl | hrest
    · exact hproperty _ List.mem_cons_self hbatch hran
    · exact ih (fun other hother => hproperty other (List.mem_cons_of_mem _ hother)) batch hrest

end Batches

/-- An id longer than any in the log. -/
def longerId (store : DatabaseStore) : OperationId := String.ofList ('o' :: store.outbox.operations.flatMap (·.id.toList))

def ruleWhere (conditions : List MailQueryRuleNode) (action : AutomationAction) : AutomationRule :=
  ⟨"rule", "rule", true, [.Manual], ⟨.mk .All false conditions⟩, [action], true⟩

/-- A backfill of an enabled account in batches of one size. -/
def backfillOf (automation_rules : List AutomationRule) (batch_size : Nat) : Backfill where
  reading :=
    { account_id := "work"
      functions := smart_mailboxes.asciiFunctions
      sql_error := "interrupted"
      source_projection := fun _ => none
      conversation_id := fun _ => some "conversation"
      mailbox_name := fun _ => ""
      message_fts := fun _ => [] }
  mint store := ⟨"t", 0, longerId store, ""⟩
  source := some true
  automation_rules
  to_string _ := .ok "fingerprint"
  batch_size

/-- A provider that answers every keyword change of a message the same way. -/
def observing (set_keywords : MessageId → Except GatewayError MutationOutcome) : Observation where
  gateway :=
    { save_draft := fun _ _ _ _ => .error .Auth
      delete_draft := fun _ _ => .error .Auth
      send_message := fun _ _ _ => .error .Auth
      set_keywords := fun id _ => set_keywords id
      replace_mailboxes := fun _ _ => .ok ⟨none, none⟩
      destroy_message := fun _ => .ok ⟨none, none⟩ }
  sync := .ok default
  cycle_started_mono := 0
  wall_now := "t"
  mono_now := 1
  now := "t"
  mint _ := ⟨"t", 0, "repair", ""⟩

/-- Messages without keywords or mailboxes. -/
def plainMessages (ids : List MessageId) : DatabaseStore :=
  { DatabaseStore.empty with
    message := ids.foldr (fun id table => table.insert id (.of_record { (default : MessageRecord) with id })) ∅ }

theorem mintsFresh_backfillOf (automation_rules : List AutomationRule) (batch_size : Nat) :
    (backfillOf automation_rules batch_size).MintsFresh := by
  intro store
  show store.outbox.get_operation (longerId store) = none
  rw [OutboxTable.get_operation, Option.map_eq_none_iff]
  by_contra hfound
  obtain ⟨row, hrow⟩ := Option.ne_none_iff_exists'.mp hfound
  obtain ⟨hmem, hkey⟩ := Table.find_eq_some_iff.mp hrow
  have hmember : row.operation ∈ store.outbox.operations := List.mem_map_of_mem hmem
  have hshorter : row.operation.id.toList.length ≤ (store.outbox.operations.flatMap (·.id.toList)).length := by
    rw [List.length_flatMap]
    exact List.single_le_sum (fun _ _ => Nat.zero_le _) _ (List.mem_map_of_mem hmember)
  have hlength : row.operation.id.toList.length =
      ('o' :: store.outbox.operations.flatMap (·.id.toList)).length := by
    rw [show row.operation.id = longerId store from hkey, longerId, String.toList_ofList]
  rw [List.length_cons] at hlength
  omega

namespace BatchRun

/-- The batch that an observation makes of a service. -/
def taken (backfill : Backfill) (observation : Observation) (before : BackfillService) : BatchRun where
  observation
  before
  outcome := (backfill.process_automation_backfill_job_batch observation before).1.toOption.getD notRun
  after := (backfill.process_automation_backfill_job_batch observation before).2

variable {backfill : Backfill} {observation : Observation} {before : BackfillService}

theorem process_of_taken (hran : (taken backfill observation before).outcome.ran = true) :
    backfill.process_automation_backfill_job_batch observation before =
      (.ok (taken backfill observation before).outcome, (taken backfill observation before).after) := by
  unfold taken at hran ⊢
  cases hprocess : backfill.process_automation_backfill_job_batch observation before with
  | mk result after =>
    cases result with
    | error error =>
      rw [hprocess] at hran
      cases hran
    | ok outcome => rfl

/-- The messages that neither store has are held. -/
theorem held_of_stored {batch : BatchRun}
    (hstored : ∀ id ∈ storedIds batch.after.store ++ storedIds (batch.filled backfill),
      backfill.reading.served batch.after.store id = backfill.reading.served (batch.filled backfill) id)
    (id : MessageId) : batch.Held backfill id := by
  by_cases hmem : id ∈ storedIds batch.after.store ++ storedIds (batch.filled backfill)
  · exact hstored id hmem
  · rw [List.mem_append, not_or] at hmem
    have hnone : ∀ {store : DatabaseStore}, id ∉ storedIds store → backfill.reading.served store id = none := by
      intro store hnot
      by_contra hserved
      obtain ⟨message, hmessage⟩ := Option.ne_none_iff_exists'.mp hserved
      exact hnot (mem_storedIds hmessage)
    rw [Held, hnone hmem.1, hnone hmem.2]

end BatchRun

def accepting : Observation := observing fun _ => .ok ⟨none, none⟩

def tagging : Backfill := backfillOf [ruleWhere [] (.ApplyTag "b")] 10

def taggingBatch : BatchRun := .taken tagging accepting ⟨plainMessages ["m1"], ∅⟩

def chained : Backfill :=
  backfillOf
    [ruleWhere [.Condition ⟨.Keyword, .Equals, false, .String "b"⟩] (.ApplyTag "c"), ruleWhere [] (.ApplyTag "b")] 10

def chainedBatch : BatchRun := .taken chained accepting ⟨plainMessages ["m1"], ∅⟩

def rejecting : Observation :=
  observing fun id =>
    if id = "m1" then .error (.MutationRejected (.Present { (default : MessageRecord) with id }) "read only")
    else .ok ⟨none, none⟩

def stalled : Backfill := backfillOf [ruleWhere [] (.ApplyTag "b")] 1

def stalledService : BackfillService where
  store := plainMessages ["m1", "m2"]
  automation_backfill_job := (∅ : AList fun _ : String => AutomationBackfillJob).insert "fingerprint"
    { rule_fingerprint := "fingerprint", status := .Pending, attempts := 0, last_error := none, updated_at := "t" }

def stalledBatch : BatchRun := .taken stalled rejecting stalledService


/-- Nothing is pending and nothing shown but what the base rows show. -/
def BackfillService.settled (service : BackfillService) : Bool :=
  service.store.outbox.rows.isEmpty && service.store.message_overlay.entries.isEmpty &&
    service.store.draft_alias.entries.isEmpty && service.store.send_alias.entries.isEmpty &&
    service.store.mailbox.isEmpty && service.store.message_cursor.isNone

def BackfillService.records (service : BackfillService) : List MessageRecord :=
  service.store.message.entries.map fun entry => entry.2.record entry.1

theorem eq_of_records {first second : BackfillService} (hfirst : first.settled = true) (hsecond : second.settled = true)
    (hrecords : first.records = second.records)
    (hjobs : first.automation_backfill_job.entries = second.automation_backfill_job.entries) : first = second := by
  obtain ⟨⟨⟨rows, hrows⟩, message, overlay, drafts, sends, mailbox, cursor⟩, jobs⟩ := first
  obtain ⟨⟨⟨rows', hrows'⟩, message', overlay', drafts', sends', mailbox', cursor'⟩, jobs'⟩ := second
  have hrecord : Function.Injective fun entry : (_ : MessageId) × MessageRow => entry.2.record entry.1 := by
    rintro ⟨id, row⟩ ⟨id', row'⟩ hsame
    obtain rfl : id = id' := congrArg MessageRecord.id hsame
    have hrow : row = row' := by
      rw [← row.of_record_record id, ← row'.of_record_record id]
      exact congrArg MessageRow.of_record hsame
    rw [hrow]
  have hmessage : message = message' := AList.ext (List.map_injective_iff.mpr hrecord hrecords)
  have hjob : jobs = jobs' := AList.ext hjobs
  simp only [BackfillService.settled, Bool.and_eq_true, List.isEmpty_iff, Option.isNone_iff_eq_none] at hfirst hsecond
  obtain ⟨⟨⟨⟨⟨rfl, hoverlay⟩, hdrafts⟩, hsends⟩, rfl⟩, rfl⟩ := hfirst
  obtain ⟨⟨⟨⟨⟨rfl, hoverlay'⟩, hdrafts'⟩, hsends'⟩, rfl⟩, rfl⟩ := hsecond
  rw [hmessage, hjob, AList.ext (hoverlay.trans hoverlay'.symm), AList.ext (hdrafts.trans hdrafts'.symm),
    AList.ext (hsends.trans hsends'.symm)]

theorem stalledBatch_ran : stalledBatch.outcome.ran = true := by decide +kernel

theorem after_stalledBatch : stalledBatch.after = stalledService :=
  eq_of_records (by decide +kernel) (by decide +kernel) (by decide +kernel) (by decide +kernel)

/-- A batch of rejected pushes leaves the account as it was. -/
theorem runs_stalled (count : Nat) :
    Runs stalled stalledService (List.replicate count stalledBatch) stalledService := by
  induction count with
  | zero => exact .nil
  | succ count ih =>
    rw [← after_stalledBatch] at ih
    exact @Runs.cons stalled stalledBatch _ _ (BatchRun.process_of_taken stalledBatch_ran) stalledBatch_ran
      (after_stalledBatch ▸ ih)

end posthaste.service
