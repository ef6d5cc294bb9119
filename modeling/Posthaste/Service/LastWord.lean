import Posthaste.Service.Coalesce
import Posthaste.Service.Mutation
import Posthaste.Service.Replayed
import Posthaste.Service.SnoozeKept

open serde posthaste.model posthaste.replica posthaste.store effects

namespace posthaste.service

open MailService

section Coalesced

variable {store after : DatabaseStore} {payload merged : Value} {superseded : List Operation}

/-- Superseded patches leave a keyword that the new one names on one side as the new one has it. -/
theorem mention_of_coalesceInto {command : SetKeywordsCommand} (hpayload : from_value payload = .ok command)
    (hrun : (coalesceInto .SetKeywords superseded payload).run store = .ok merged after) :
    ∃ last, from_value merged = .ok last ∧ ∀ keyword, mention command keyword = .add ∨ mention command keyword = .remove →
      mention last keyword = mention command keyword := by
  induction superseded generalizing store payload command with
  | nil =>
    cases hrun
    exact ⟨command, hpayload, fun _ _ => rfl⟩
  | cons existing rest ih =>
    unfold coalesceInto at hrun
    by_cases hkind : existing.kind = .SetKeywords
    · rw [if_pos ⟨rfl, hkind⟩] at hrun
      obtain ⟨folded, middle, hmerge, hrest⟩ := run_bind_eq_ok_iff.mp hrun
      rw [run_outbox_bind] at hrest
      cases hmerged : merge_set_keywords existing.payload payload with
      | error error =>
        rw [hmerged] at hmerge
        cases hmerge
      | ok value =>
        rw [hmerged] at hmerge
        cases hmerge
        have hdecoded := hmerged
        unfold merge_set_keywords at hdecoded
        obtain ⟨older, holder, -⟩ := except_bind_eq_ok_iff.mp hdecoded
        have hexisting : from_value existing.payload = .ok older := by
          unfold decode_payload at holder
          cases hvalue : (from_value existing.payload : Except Error SetKeywordsCommand) with
          | error error => simp [hvalue] at holder
          | ok found =>
            simp only [hvalue, Except.ok.injEq] at holder
            rw [holder]
        rw [merge_set_keywords_eq hexisting hpayload, Except.ok.injEq] at hmerged
        subst hmerged
        have hfolded : from_value (to_value (mergedPatch older command)) = .ok (mergedPatch older command) := by simp
        obtain ⟨last, hlast, hmention⟩ := ih hfolded hrest
        refine ⟨last, hlast, fun keyword hsided => ?_⟩
        have hstep : mention (mergedPatch older command) keyword = mention command keyword := by
          rw [mention_mergedPatch]
          rcases hsided with hadd | hremove
          · rw [hadd, carried, carried]
          · rw [hremove, carried, carried]
        rw [hmention keyword (by rwa [hstep]), hstep]
    · rw [if_neg fun hboth => hkind hboth.2, run_pure_bind, run_outbox_bind] at hrun
      exact ih hpayload hrun

theorem payload_of_coalesceInto {kind : OperationKind} (hkind : kind ≠ .SetKeywords)
    (hrun : (coalesceInto kind superseded payload).run store = .ok merged after) : merged = payload := by
  induction superseded generalizing store with
  | nil =>
    cases hrun
    rfl
  | cons existing rest ih =>
    unfold coalesceInto at hrun
    rw [if_neg fun hboth => hkind hboth.1, run_pure_bind, run_outbox_bind] at hrun
    exact ih hrun

/-- Coalescing only takes operations out of the log. -/
theorem get_of_coalesceInto {kind : OperationKind} {id : OperationId} (hnone : store.outbox.get_operation id = none)
    (hrun : (coalesceInto kind superseded payload).run store = .ok merged after) :
    after.outbox.get_operation id = none := by
  induction superseded generalizing store payload with
  | nil =>
    cases hrun
    exact hnone
  | cons existing rest ih =>
    have hremoved : (store.outbox.remove_operation existing.id).get_operation id = none := by
      rw [OutboxTable.get_remove_operation]
      by_cases hsame : id = existing.id
      · rw [hsame, Function.update_self]
      · rw [Function.update_of_ne hsame, hnone]
    unfold coalesceInto at hrun
    by_cases hmerges : kind = .SetKeywords ∧ existing.kind = .SetKeywords
    · rw [if_pos hmerges] at hrun
      cases hmerged : merge_set_keywords existing.payload payload with
      | error error =>
        rw [hmerged] at hrun
        cases hrun
      | ok value =>
        rw [hmerged, run_fallible_ok_bind, run_outbox_bind] at hrun
        exact ih hremoved hrun
    · rw [if_neg hmerges, run_pure_bind, run_outbox_bind] at hrun
      exact ih hremoved hrun

end Coalesced

section Queued

variable {store after : DatabaseStore} {message_id : MessageId} {kind : OperationKind} {payload : Value}
  {minted : Minted} {operation : Operation}

/-- A queued assertion is new, and stands last in the log. -/
structure QueuedLast (store after : DatabaseStore) (message_id : MessageId) (kind : OperationKind) (payload : Value)
    (operation : Operation) : Prop where
  log : after = { store with outbox := after.outbox }
  last : ∃ earlier, after.outbox.operations = earlier ++ [operation]
  entity : operation.entity = ⟨.Message, message_id⟩
  of_kind : operation.kind = kind
  state : operation.state = .Pending
  version : operation.payload_version = 1
  coalesced : ∃ superseded middle, (coalesceInto kind superseded payload).run store = .ok operation.payload middle

theorem queuedLast_of_queue (hkind : kind.is_state_assertion)
    (hfresh : store.outbox.get_operation minted.operation_id = none)
    (hrun : (queue_message_operation message_id kind payload minted).run store = .ok operation after) :
    QueuedLast store after message_id kind payload operation := by
  have hlog : ∃ log, after = { store with outbox := log } := by
    obtain ⟨log, hlog⟩ := (logOnly_queue message_id kind payload minted).final_eq store
    rw [hrun] at hlog
    exact ⟨log, hlog⟩
  obtain ⟨log, rfl⟩ := hlog
  unfold queue_message_operation queue_operation_with_id at hrun
  rw [if_pos hkind] at hrun
  obtain ⟨merged, middle, hcoalesce, henqueue⟩ := run_bind_eq_ok_iff.mp hrun
  unfold coalesce_pending_assertions at hcoalesce
  rw [run_read_bind] at hcoalesce
  have hmiddle := get_of_coalesceInto hfresh hcoalesce
  set queued := newOperation minted.operation_id ⟨.Message, message_id⟩ kind merged none none minted.now with hqueued
  have hoperations := @OutboxTable.operations_enqueue_of_fresh middle.outbox queued hmiddle
  have hstored := OutboxTable.get_of_mem (hoperations ▸ List.mem_append_right _ List.mem_cons_self)
  have henqueue : (enqueue_operation queued).run middle = .ok operation { store with outbox := log } := henqueue
  unfold enqueue_operation at henqueue
  rw [run_outbox_bind, run_read_bind] at henqueue
  simp only [hstored] at henqueue
  injection henqueue with hsame hstore
  have houtbox : middle.outbox.enqueue_operation queued = log := congrArg DatabaseStore.outbox hstore
  rw [houtbox] at hoperations
  rw [← hsame]
  exact ⟨rfl, ⟨_, hoperations⟩, rfl, rfl, rfl, rfl, ⟨_, _, hcoalesce⟩⟩

theorem QueuedLast.foldedAssertions (hqueued : QueuedLast store after message_id kind payload operation)
    (hkind : kind.is_state_assertion) :
    ∃ earlier, foldedAssertions after message_id = earlier ++ [operation] := by
  obtain ⟨earlier, hoperations⟩ := hqueued.last
  have hasserts : assertsOn message_id operation = true := by
    simp [assertsOn, is_replayable, hqueued.entity, hqueued.of_kind, hqueued.state, hkind]
  refine ⟨earlier.filter (assertsOn message_id), ?_⟩
  rw [foldedAssertions_eq, hoperations, List.filter_append, List.filter_singleton, hasserts]
  rfl

end Queued

section Shown

variable {store after : DatabaseStore} {message_id : MessageId} {row : MessageRow} {earlier : List Operation}
  {last : Operation}

/-- The last assertion of a row decides the keywords it names and, if it files the message, its mailboxes. -/
theorem shown_of_last (hview : view store message_id = .ok (some row))
    (hlog : foldedAssertions store message_id = earlier ++ [last]) :
    (∀ keyword value, assertionPatch (assertionOf last) keyword = some value →
      (keyword ∈ row.keywords.toList ↔ value = true)) ∧
    ∀ mailbox_ids, assertionOf last = .ReplaceMailboxes mailbox_ids →
      ∀ mailbox_id, mailbox_id ∈ row.mailbox_ids.toList ↔ mailbox_id ∈ mailbox_ids := by
  unfold view at hview
  obtain ⟨replayed, hreplayed, hrow⟩ := except_map_eq_ok_iff.mp hview
  obtain ⟨projected, rfl, rfl⟩ := Option.map_eq_some_iff.mp hrow
  unfold replayRecord at hreplayed
  cases hfold : foldEntityOps (store.snapshot message_id) message_id
      { state := (store.snapshot message_id).base, discarded_by_draft_op := false }
      (entityOps (rowTouches (store.snapshot message_id) message_id)) with
  | error error => simp [hfold] at hreplayed
  | ok fold =>
    obtain ⟨state, discarded⟩ := fold
    cases state with
    | none => simp [hfold] at hreplayed
    | some record =>
      simp only [hfold] at hreplayed
      have hid : record.id = message_id :=
        id_of_foldEntityOps (fun _ hbase => id_of_snapshot hbase) hfold record rfl
      have hproject : replayRow store message_id record = .ok (some projected) := by
        cases hprojected : project_record record (messageOps (rowTouches (store.snapshot message_id) message_id)) with
        | error error =>
          rw [hprojected] at hreplayed
          cases hreplayed
        | ok value =>
          rw [hprojected] at hreplayed
          cases hreplayed
          exact hprojected
      obtain ⟨-, hreplay⟩ := (replayRow_eq_ok_iff hid).mp hproject
      rw [hlog, List.map_append, List.map_singleton] at hreplay
      cases houtcome : replay_message (foldState record) (earlier.map assertionOf ++ [assertionOf last]) with
      | Removed => simp [houtcome, withOutcome] at hreplay
      | Present state =>
        obtain ⟨hkeywords, hmoves⟩ := replay_message_present houtcome
        simp only [houtcome, withOutcome, Option.some.injEq] at hreplay
        subst hreplay
        rw [List.map_append, List.map_singleton, Override.latest_concat, Override.settle_onto] at hkeywords
        constructor
        · intro keyword value hvalue
          have hcarries := congrFun hkeywords keyword
          simp only [Override.settle, hvalue, Option.getD_some] at hcarries
          rw [← hcarries]
          simp [MessageRow.of_record, carries, ← BTreeSet.mem_iff]
        · intro mailbox_ids hreplace mailbox_id
          have hfiled : state.mailbox_ids = mailbox_ids := by
            rw [hmoves, moves, List.foldl_append, List.foldl_cons, List.foldl_nil, hreplace]
            rfl
          simp [MessageRow.of_record, hfiled, ← BTreeSet.mem_iff]

end Shown

section Mutations

variable {store after : DatabaseStore} {message_id : MessageId} {minted : Minted}

/-- What a mutation of one message leaves alone, and that the message is there after it. -/
structure Mutated (store after : DatabaseStore) (message_id : MessageId) : Prop where
  message : after.message = store.message
  mailbox : after.mailbox = store.mailbox
  elsewhere : ∀ other, other ≠ message_id → after.message_overlay.lookup other = store.message_overlay.lookup other
  present : (after.effective message_id).isSome

/-- A mutation that succeeds has queued its operation last, derived the row and found the message. -/
theorem mutated_of_queue_then_emit {kind : OperationKind} {payload : Value}
    (hkind : kind = .SetKeywords ∨ kind = .ReplaceMailboxes)
    (hfresh : store.outbox.get_operation minted.operation_id = none)
    (hrun : (queue_then_emit_message_operation message_id kind payload minted).run store = .ok () after) :
    Mutated store after message_id ∧ ∃ operation queued, QueuedLast store queued message_id kind payload operation ∧
      after.outbox = queued.outbox ∧ view after message_id = .ok (after.effective message_id) := by
  have hassertion : kind.is_state_assertion = true := by rcases hkind with rfl | rfl <;> rfl
  unfold queue_then_emit_message_operation at hrun
  obtain ⟨operation, queued, hqueue, hfold⟩ := run_bind_eq_ok_iff.mp hrun
  have hqueued := queuedLast_of_queue hassertion hfresh hqueue
  rw [tryCatch_run] at hfold
  cases happly : (apply_assertion_to_overlay message_id operation).run queued with
  | error error middle =>
    rw [happly] at hfold
    unfold remove_operation_after_local_failure at hfold
    simp only [run_outbox_bind] at hfold
    cases hfold
  | ok value folded =>
    rw [happly] at hfold
    obtain ⟨rfl, rfl⟩ : value = () ∧ folded = after := by
      cases hfold
      exact ⟨rfl, rfl⟩
    unfold apply_assertion_to_overlay at happly
    rw [if_pos (by rw [hqueued.of_kind]; exact hassertion)] at happly
    unfold get_message_summary at happly
    rw [run_read_bind] at happly
    have hdestroy : ¬ (operation.kind = .Destroy ∧ (queued.effective message_id).isNone) := by
      rintro ⟨hdestroy, -⟩
      rw [hqueued.of_kind] at hdestroy
      rcases hkind with rfl | rfl <;> cases hdestroy
    rw [if_neg hdestroy] at happly
    have happly : (refresh_message_overlay message_id >>= fun _ => echoAssertion message_id operation).run queued =
        .ok () folded := happly
    obtain ⟨diff, derived, hrefresh, hecho⟩ := run_bind_eq_ok_iff.mp happly
    have hderived := rederived_of_refresh hrefresh
    obtain ⟨rfl, hpresent⟩ : derived = folded ∧ (derived.effective message_id).isSome := by
      unfold echoAssertion get_message_summary at hecho
      cases heffective : derived.effective message_id with
      | none =>
        rcases hkind with rfl | rfl
        · simp only [hqueued.of_kind, run_read_bind, heffective] at hecho
          cases hecho
        · cases hintent : operation.intent with
          | error error =>
            simp only [hqueued.of_kind, hintent] at hecho
            cases hecho
          | ok intent =>
            simp only [hqueued.of_kind, hintent, run_read_bind, heffective] at hecho
            cases hecho
      | some row =>
        rcases hkind with rfl | rfl
        · simp only [hqueued.of_kind, run_read_bind, heffective] at hecho
          cases hecho
          exact ⟨rfl, rfl⟩
        · cases hintent : operation.intent with
          | error error =>
            simp only [hqueued.of_kind, hintent] at hecho
            cases hecho
          | ok intent =>
            simp only [hqueued.of_kind, hintent, run_read_bind, heffective] at hecho
            cases hecho
            exact ⟨rfl, rfl⟩
    have hlingering : ¬ LingeringTombstone queued message_id := by
      intro hlingering
      obtain ⟨htouches, -⟩ := lingeringTombstone_iff.mp hlingering
      obtain ⟨earlier, hlast⟩ := hqueued.foldedAssertions hassertion
      rw [foldedAssertions, htouches] at hlast
      simp [messageOps] at hlast
    have hsynced := hderived.synced message_id List.mem_cons_self hlingering
    refine ⟨⟨?_, ?_, ?_, hpresent⟩, operation, queued, hqueued, ?_, syncedAt_iff.mp hsynced⟩
    · rw [hderived.inputs, hqueued.log]
    · rw [hderived.inputs, hqueued.log]
    · intro other hother
      rw [hderived.elsewhere other (by simpa using hother), hqueued.log]
    · rw [hderived.inputs]

theorem foldedAssertions_congr {queued : DatabaseStore} (hlog : after.outbox = queued.outbox) :
    foldedAssertions after message_id = foldedAssertions queued message_id := by
  rw [foldedAssertions_eq, foldedAssertions_eq, hlog]

/-- After a keyword mutation the message has what it adds and lacks what it removes. -/
theorem mutated_of_set_keywords {command : SetKeywordsCommand}
    (hfresh : store.outbox.get_operation minted.operation_id = none)
    (hrun : (set_keywords message_id command minted).run store = .ok () after) :
    Mutated store after message_id ∧ ∃ row, after.effective message_id = some row ∧
      (∀ keyword, mention command keyword = .add → keyword ∈ row.keywords.toList) ∧
      ∀ keyword, mention command keyword = .remove → keyword ∉ row.keywords.toList := by
  obtain ⟨hmutated, operation, queued, hqueued, hlog, hview⟩ := mutated_of_queue_then_emit (.inl rfl) hfresh hrun
  obtain ⟨row, hrow⟩ := Option.isSome_iff_exists.mp hmutated.present
  rw [hrow] at hview
  obtain ⟨earlier, hlast⟩ := hqueued.foldedAssertions rfl
  rw [← foldedAssertions_congr hlog] at hlast
  obtain ⟨hkeywords, -⟩ := shown_of_last hview hlast
  obtain ⟨superseded, middle, hcoalesced⟩ := hqueued.coalesced
  have hpayload : from_value (to_value command) = .ok command := by simp
  obtain ⟨patch, hpatch, hmention⟩ := mention_of_coalesceInto hpayload hcoalesced
  have hassertion : assertionOf operation = .SetKeywords patch.add patch.remove := by
    simp [assertionOf, intent_fold_effect, Operation.intent, MailIntent.from_parts, MailIntent.decode, hqueued.of_kind,
      hqueued.version, hpatch, intentEffect]
  have hdecides : ∀ keyword, assertionPatch (assertionOf operation) keyword = (mention patch keyword).verdict := by
    intro keyword
    rw [hassertion]
    rfl
  refine ⟨hmutated, row, hrow, fun keyword hadd => ?_, fun keyword hremove => ?_⟩
  · refine (hkeywords keyword true ?_).mpr rfl
    rw [hdecides, hmention keyword (.inl hadd), hadd]
    rfl
  · have hfalse : assertionPatch (assertionOf operation) keyword = some false := by
      rw [hdecides, hmention keyword (.inr hremove), hremove]
      rfl
    intro hmem
    exact Bool.false_ne_true ((hkeywords keyword false hfalse).mp hmem)

/-- After a mailbox mutation the message is in the mailboxes it names. -/
theorem mutated_of_replace_mailboxes {command : ReplaceMailboxesCommand}
    (hfresh : store.outbox.get_operation minted.operation_id = none)
    (hrun : (replace_mailboxes message_id command minted).run store = .ok () after) :
    Mutated store after message_id ∧ ∃ row, after.effective message_id = some row ∧
      ∀ mailbox_id, mailbox_id ∈ row.mailbox_ids.toList ↔ mailbox_id ∈ command.mailbox_ids := by
  obtain ⟨hmutated, operation, queued, hqueued, hlog, hview⟩ := mutated_of_queue_then_emit (.inr rfl) hfresh hrun
  obtain ⟨row, hrow⟩ := Option.isSome_iff_exists.mp hmutated.present
  rw [hrow] at hview
  obtain ⟨earlier, hlast⟩ := hqueued.foldedAssertions rfl
  rw [← foldedAssertions_congr hlog] at hlast
  obtain ⟨-, hmailboxes⟩ := shown_of_last hview hlast
  obtain ⟨superseded, middle, hcoalesced⟩ := hqueued.coalesced
  have hpayload : operation.payload = to_value command := payload_of_coalesceInto (by decide) hcoalesced
  have hassertion : assertionOf operation = .ReplaceMailboxes command.mailbox_ids := by
    simp [assertionOf, intent_fold_effect, Operation.intent, MailIntent.from_parts, MailIntent.decode, hqueued.of_kind,
      hqueued.version, hpayload, intentEffect]
  exact ⟨hmutated, row, hrow, hmailboxes command.mailbox_ids hassertion⟩

end Mutations

end posthaste.service
