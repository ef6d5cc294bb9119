import Posthaste.Library.Override
import Posthaste.Service.Queue

open serde posthaste.model posthaste.replica posthaste.store

namespace posthaste.service

open MailService

section Mentions

/-- On which sides a keyword patch names a keyword. -/
inductive Mention where
  | neither
  | add
  | remove
  | both
  deriving DecidableEq

def Mention.of (inAdd inRemove : Bool) : Mention :=
  match inAdd, inRemove with
  | false, false => .neither
  | true, false => .add
  | false, true => .remove
  | true, true => .both

def mention (command : SetKeywordsCommand) (keyword : String) : Mention :=
  .of (decide (keyword ∈ command.add)) (decide (keyword ∈ command.remove))

/-- The fold's verdict: removal is applied after addition. -/
def Mention.verdict : Mention → Option Bool
  | .neither => none
  | .add => some true
  | .remove | .both => some false

/-- The mention that is left once superseded patches, oldest first, are merged
    under a newer one: a one-sided mention stays, an absent one takes the next
    patch's, and a two-sided one cancels itself. -/
def carried (keyword : String) : Mention → List SetKeywordsCommand → Mention
  | newer, [] => newer
  | .neither, older :: rest => carried keyword (mention older keyword) rest
  | .add, _ :: rest => carried keyword .add rest
  | .remove, _ :: rest => carried keyword .remove rest
  | .both, _ :: rest => carried keyword .neither rest

/-- The pure core of `merge_set_keywords`. -/
def mergedPatch (older newer : SetKeywordsCommand) : SetKeywordsCommand where
  add := (BTreeSet.from_iter ((older.add ++ newer.add).filter fun keyword => keyword ∉ newer.remove)).toList
  remove := (BTreeSet.from_iter ((older.remove ++ newer.remove).filter fun keyword => keyword ∉ newer.add)).toList

theorem merge_set_keywords_eq {older newer : Value} {olderPatch newerPatch : SetKeywordsCommand}
    (holder : from_value older = .ok olderPatch) (hnewer : from_value newer = .ok newerPatch) :
    merge_set_keywords older newer = .ok (to_value (mergedPatch olderPatch newerPatch)) := by
  simp [merge_set_keywords, decode_payload, holder, hnewer, bind, Except.bind, pure, Except.pure, mergedPatch]

theorem mention_mergedPatch (older newer : SetKeywordsCommand) (keyword : String) :
    mention (mergedPatch older newer) keyword = carried keyword (mention newer keyword) [older] := by
  have hadd : keyword ∈ (mergedPatch older newer).add ↔
      (keyword ∈ older.add ∨ keyword ∈ newer.add) ∧ keyword ∉ newer.remove := by
    simp [mergedPatch, ← BTreeSet.mem_iff, or_and_right]
  have hremove : keyword ∈ (mergedPatch older newer).remove ↔
      (keyword ∈ older.remove ∨ keyword ∈ newer.remove) ∧ keyword ∉ newer.add := by
    simp [mergedPatch, ← BTreeSet.mem_iff, or_and_right]
  by_cases hnewAdd : keyword ∈ newer.add <;> by_cases hnewRemove : keyword ∈ newer.remove <;>
    simp [mention, hadd, hremove, hnewAdd, hnewRemove, Mention.of, carried]

theorem carried_append (keyword : String) (newer : Mention) (first second : List SetKeywordsCommand) :
    carried keyword newer (first ++ second) = carried keyword (carried keyword newer first) second := by
  induction first generalizing newer with
  | nil => cases newer <;> rfl
  | cons older rest ih => cases newer <;> exact ih _

/-- What the coalescing loop makes of the new patch. -/
def coalescedPatch (newer : SetKeywordsCommand) (superseded : List SetKeywordsCommand) : SetKeywordsCommand :=
  superseded.foldl (fun merged older => mergedPatch older merged) newer

theorem mention_coalescedPatch (newer : SetKeywordsCommand) (superseded : List SetKeywordsCommand)
    (keyword : String) :
    mention (coalescedPatch newer superseded) keyword = carried keyword (mention newer keyword) superseded := by
  induction superseded generalizing newer with
  | nil => cases hmention : mention newer keyword <;> simp [coalescedPatch, carried, hmention]
  | cons older rest ih =>
    show mention (coalescedPatch (mergedPatch older newer) rest) keyword = _
    rw [ih, mention_mergedPatch, ← carried_append]
    rfl

end Mentions

section Replay

/-- What an assertion decides about each keyword. -/
def assertionPatch : MessageAssertion → Override String Bool
  | .SetKeywords add remove => fun keyword => (mention { add, remove } keyword).verdict
  | .ApplyDiff diff =>
    fun keyword => (mention { add := diff.keywords.added, remove := diff.keywords.removed } keyword).verdict
  | .ReplaceMailboxes _ | .Destroy => Override.keep

/-- What an assertion makes of the mailbox memberships. -/
def assertionMove : MessageAssertion → List String → List String
  | .ReplaceMailboxes mailbox_ids => fun _ => mailbox_ids
  | .ApplyDiff diff => fun current => applyDelta current diff.mailboxes.added diff.mailboxes.removed
  | .SetKeywords _ _ | .Destroy => id

def moves (assertions : List MessageAssertion) (mailbox_ids : List String) : List String :=
  assertions.foldl (fun current assertion => assertionMove assertion current) mailbox_ids

/-- Keyword membership, as the value a patch settles. -/
def carries (keywords : List String) : String → Bool := fun keyword => decide (keyword ∈ keywords)

private theorem carries_applyDelta (items added removed : List String) :
    carries (applyDelta items added removed) =
      Override.settle (fun keyword => (mention { add := added, remove := removed } keyword).verdict)
        (carries items) := by
  funext keyword
  by_cases hadd : keyword ∈ added <;> by_cases hremove : keyword ∈ removed <;>
    simp [carries, Override.settle, mention, Mention.of, Mention.verdict, hadd, hremove]

private theorem apply_message_assertion_present {state after : MessageFoldState} {assertion : MessageAssertion}
    (happly : apply_message_assertion state assertion = .Present after) :
    carries after.keywords = (assertionPatch assertion).settle (carries state.keywords) ∧
      after.mailbox_ids = assertionMove assertion state.mailbox_ids := by
  cases assertion with
  | SetKeywords add remove =>
    cases happly
    exact ⟨carries_applyDelta _ _ _, rfl⟩
  | ReplaceMailboxes mailbox_ids =>
    cases happly
    exact ⟨rfl, rfl⟩
  | Destroy => cases happly
  | ApplyDiff diff =>
    cases happly
    exact ⟨carries_applyDelta _ _ _, rfl⟩

/-- A replay that leaves the message present settles each keyword by the newest
    assertion that decides it, and its memberships by the moves in order. -/
theorem replay_message_present {base after : MessageFoldState} {assertions : List MessageAssertion}
    (hreplay : replay_message base assertions = .Present after) :
    carries after.keywords = (Override.latest (assertions.map assertionPatch)).settle (carries base.keywords) ∧
      after.mailbox_ids = moves assertions base.mailbox_ids := by
  unfold replay_message at hreplay
  induction assertions generalizing base with
  | nil =>
    cases hreplay
    exact ⟨rfl, rfl⟩
  | cons assertion rest ih =>
    rw [replayFrom_Present_cons] at hreplay
    cases happly : apply_message_assertion base assertion with
    | Removed => simp [happly] at hreplay
    | Present middle =>
      rw [happly] at hreplay
      obtain ⟨hkeywords, hmailboxes⟩ := ih hreplay
      obtain ⟨hpatch, hmove⟩ := apply_message_assertion_present happly
      constructor
      · rw [hkeywords, hpatch, List.map_cons, Override.latest, Override.settle_onto]
      · rw [hmailboxes, hmove]
        rfl

end Replay

section Log

variable {store after : DatabaseStore} {message_id : MessageId} {kind : OperationKind} {payload merged : Value}

/-- The log's assertions on a message, in replay order. -/
def foldedAssertions (store : DatabaseStore) (message_id : MessageId) : List Operation :=
  messageOps (rowTouches (store.snapshot message_id) message_id)

/-- The log's replay of one message over a base row. -/
def replayRow (store : DatabaseStore) (message_id : MessageId) (record : MessageRecord) :
    Except ServiceError (Option MessageRecord) :=
  project_record record (foldedAssertions store message_id)

/-- The stored operations a new assertion on the message supersedes, oldest first. -/
def superseded (store : DatabaseStore) (message_id : MessageId) (kind : OperationKind) : List Operation :=
  store.outbox.operations.filter (supersedes ⟨.Message, message_id⟩ kind)

private theorem folds_of_supersedes {operation : Operation}
    (hsupersedes : supersedes ⟨.Message, message_id⟩ kind operation) :
    assertsOn message_id operation = true ∧ operation.state = .Pending := by
  simp only [supersedes, Bool.and_eq_true, decide_eq_true_eq] at hsupersedes
  obtain ⟨⟨⟨hentity, hassertion⟩, hstate⟩, _⟩ := hsupersedes
  simp [assertsOn, is_replayable, hentity, hassertion, hstate]

private theorem unsettled_of_assertsOn {operation : Operation} (hasserts : assertsOn message_id operation) :
    (operation.state != .Failed || OperationKind.CONTENT_KINDS.contains operation.kind) = true := by
  simp only [assertsOn, Bool.and_eq_true] at hasserts
  obtain ⟨⟨hreplayable, _⟩, _⟩ := hasserts
  cases hstate : operation.state with
  | Failed => simpa [is_replayable, hstate, OperationKind.is_content_op] using hreplayable
  | Pending | Inflight | Applied | DispatchUncertain => rfl

theorem foldedAssertions_eq (store : DatabaseStore) (message_id : MessageId) :
    foldedAssertions store message_id = store.outbox.operations.filter (assertsOn message_id) := by
  unfold foldedAssertions
  rw [messageOps_rowTouches]
  simp only [DatabaseStore.snapshot, OutboxTable.list_unsettled_operations, List.filter_filter]
  refine List.filter_congr fun operation _ => ?_
  cases hasserts : assertsOn message_id operation with
  | false => simp
  | true => simpa using unsettled_of_assertsOn hasserts

/-- Coalescing reads exactly the superseded operations. -/
theorem list_pending_supersedes (store : DatabaseStore) (message_id : MessageId) (kind : OperationKind) :
    store.outbox.list_pending_operations.filter (supersedes ⟨.Message, message_id⟩ kind) =
      superseded store message_id kind := by
  unfold OutboxTable.list_pending_operations superseded
  rw [List.filter_filter]
  refine List.filter_congr fun operation _ => ?_
  cases hsupersedes : supersedes ⟨.Message, message_id⟩ kind operation with
  | false => simp
  | true => simp [(folds_of_supersedes hsupersedes).2]

/-- The keyword patch a payload holds. -/
def patchOf (payload : Value) : SetKeywordsCommand :=
  match (from_value payload : Except Error SetKeywordsCommand) with
  | .ok command => command
  | .error _ => { add := [], remove := [] }

@[simp] theorem patchOf_to_value (command : SetKeywordsCommand) : patchOf (to_value command) = command := by
  simp [patchOf]

/-- What a stored operation decides about each keyword. -/
def operationPatch (operation : Operation) : Override String Bool :=
  if operation.kind = .SetKeywords then fun keyword => (mention (patchOf operation.payload) keyword).verdict
  else Override.keep

private theorem from_value_of_asserts {operation : Operation} (hkind : operation.kind = .SetKeywords)
    (hasserts : Asserts operation) :
    from_value operation.payload = .ok (patchOf operation.payload) ∧
      assertionOf operation =
        .SetKeywords (patchOf operation.payload).add (patchOf operation.payload).remove := by
  obtain ⟨intent, hintent, heffect⟩ := intent_fold_effect_eq_ok_iff.mp hasserts
  unfold Operation.intent MailIntent.from_parts at hintent
  split_ifs at hintent with hversion
  simp only [hkind, MailIntent.decode] at hintent
  cases hvalue : (from_value operation.payload : Except Error SetKeywordsCommand) with
  | error error => simp [hvalue] at hintent
  | ok command =>
    simp only [hvalue, Except.ok.injEq] at hintent
    subst hintent
    simp only [intentEffect, FoldEffect.Assert.injEq] at heffect
    simp [patchOf, hvalue, ← heffect]

private theorem assertionOf_of_other {operation : Operation} (hasserts : Asserts operation) :
    (operation.kind = .ReplaceMailboxes → ∃ mailbox_ids, assertionOf operation = .ReplaceMailboxes mailbox_ids) ∧
      (operation.kind = .Destroy ↔ assertionOf operation = .Destroy) := by
  obtain ⟨intent, hintent, heffect⟩ := intent_fold_effect_eq_ok_iff.mp hasserts
  have hkind : intent.kind = operation.kind := MailIntent.kind_of_from_parts hintent
  rw [← hkind]
  cases intent with
  | SetKeywords command | Destroy =>
    simp only [intentEffect, FoldEffect.Assert.injEq] at heffect
    simp [MailIntent.kind, ← heffect]
  | ReplaceMailboxes command =>
    simp only [intentEffect, FoldEffect.Assert.injEq] at heffect
    exact ⟨fun _ => ⟨command.mailbox_ids, heffect.symm⟩, by simp [MailIntent.kind, ← heffect]⟩
  | SaveDraft create request | DiscardDraft idempotent_redelivery | Send request => cases heffect

theorem assertionPatch_assertionOf {operation : Operation} (hassertion : operation.kind.is_state_assertion)
    (hasserts : Asserts operation) : assertionPatch (assertionOf operation) = operationPatch operation := by
  unfold operationPatch
  cases hkind : operation.kind with
  | SetKeywords =>
    rw [(from_value_of_asserts hkind hasserts).2]
    rfl
  | ReplaceMailboxes =>
    obtain ⟨mailbox_ids, hreplace⟩ := (assertionOf_of_other hasserts).1 hkind
    rw [hreplace]
    rfl
  | Destroy =>
    rw [(assertionOf_of_other hasserts).2.mp hkind]
    rfl
  | DraftCreate | DraftUpdate | DraftDelete | Send =>
    rw [hkind] at hassertion
    cases hassertion

/-- The payload the coalescing loop hands to the queued operation. -/
def coalescedPayload (kind : OperationKind) (payload : Value) (superseded : List Operation) : Value :=
  if kind = .SetKeywords ∧ superseded ≠ [] then
    to_value (coalescedPatch (patchOf payload) (superseded.map fun operation => patchOf operation.payload))
  else payload

def withoutOperations (store : DatabaseStore) (removed : List Operation) : DatabaseStore :=
  { store with outbox := removed.foldl (fun outbox operation => outbox.remove_operation operation.id) store.outbox }

/-- The coalescing loop removes what it supersedes and folds its patches into the payload. -/
theorem coalesceInto_eq {superseded : List Operation}
    (hpatches : kind = .SetKeywords → ∀ operation ∈ superseded,
      operation.kind = .SetKeywords ∧ from_value operation.payload = .ok (patchOf operation.payload))
    (hpayload : kind = .SetKeywords → from_value payload = .ok (patchOf payload)) :
    (coalesceInto kind superseded payload).run store =
      .ok (coalescedPayload kind payload superseded) (withoutOperations store superseded) := by
  induction superseded generalizing store payload with
  | nil =>
    simp only [coalescedPayload, ne_eq, not_true_eq_false, and_false, if_false]
    rfl
  | cons existing rest ih =>
    have hrest : kind = .SetKeywords → ∀ operation ∈ rest,
        operation.kind = .SetKeywords ∧ from_value operation.payload = .ok (patchOf operation.payload) :=
      fun hkind operation hmem => hpatches hkind operation (List.mem_cons_of_mem _ hmem)
    unfold coalesceInto
    by_cases hkind : kind = .SetKeywords
    · obtain ⟨hexisting, hdecode⟩ := hpatches hkind existing List.mem_cons_self
      rw [if_pos ⟨hkind, hexisting⟩, merge_set_keywords_eq hdecode (hpayload hkind), run_fallible_ok_bind,
        run_outbox_bind, ih hrest fun _ => by simp]
      congr 1
      cases rest with
      | nil => simp [hkind, coalescedPatch, coalescedPayload]
      | cons next later => simp [hkind, coalescedPatch, coalescedPayload]
    · rw [if_neg fun hboth => hkind hboth.1, run_pure_bind, run_outbox_bind, ih hrest hpayload]
      congr 1
      simp [coalescedPayload, hkind]

theorem operations_withoutOperations (removed : List Operation) :
    (withoutOperations store removed).outbox.operations =
      store.outbox.operations.filter fun operation => operation.id ∉ removed.map Operation.id := by
  unfold withoutOperations
  induction removed generalizing store with
  | nil => simp
  | cons operation rest ih =>
    have hstep := @ih { store with outbox := store.outbox.remove_operation operation.id }
    simp only [List.foldl_cons] at hstep ⊢
    rw [hstep, OutboxTable.operations_remove, List.filter_filter]
    refine List.filter_congr fun other _ => ?_
    by_cases hsame : other.id = operation.id <;> simp [hsame]

theorem operations_without_superseded :
    (withoutOperations store (superseded store message_id kind)).outbox.operations =
      store.outbox.operations.filter fun operation => !supersedes ⟨.Message, message_id⟩ kind operation := by
  rw [operations_withoutOperations]
  refine List.filter_congr fun operation hmem => ?_
  have hiff : operation.id ∈ (superseded store message_id kind).map Operation.id ↔
      supersedes ⟨.Message, message_id⟩ kind operation = true := by
    constructor
    · intro hid
      obtain ⟨other, hother, hsame⟩ := List.mem_map.mp hid
      obtain ⟨hstored, hsupersedes⟩ := List.mem_filter.mp hother
      rwa [List.inj_on_of_nodup_map OutboxTable.ids_nodup hmem hstored hsame.symm]
    · intro hsupersedes
      exact List.mem_map_of_mem (List.mem_filter.mpr ⟨hmem, hsupersedes⟩)
  cases hsupersedes : supersedes ⟨.Message, message_id⟩ kind operation <;> simp [hiff, hsupersedes]

variable {operation_id : OperationId} {now : Timestamp}

/-- Queueing an assertion replaces what it supersedes by one operation at the log's end. -/
theorem queue_assertion_eq (hkind : kind.is_state_assertion)
    (hfresh : store.outbox.get_operation operation_id = none)
    (hpatches : kind = .SetKeywords → ∀ operation ∈ superseded store message_id kind,
      operation.kind = .SetKeywords ∧ from_value operation.payload = .ok (patchOf operation.payload))
    (hpayload : kind = .SetKeywords → from_value payload = .ok (patchOf payload)) :
    ∃ queued after, (queue_operation_with_id operation_id ⟨.Message, message_id⟩ kind payload none none now).run store =
        .ok queued after ∧
      queued = newOperation operation_id ⟨.Message, message_id⟩ kind
        (coalescedPayload kind payload (superseded store message_id kind)) none none now ∧
      after.outbox.operations =
        (store.outbox.operations.filter fun operation => !supersedes ⟨.Message, message_id⟩ kind operation) ++
          [queued] := by
  set queued := newOperation operation_id ⟨.Message, message_id⟩ kind
    (coalescedPayload kind payload (superseded store message_id kind)) none none now with hqueued
  set removed := withoutOperations store (superseded store message_id kind) with hremoved
  have hcoalesce : (coalesce_pending_assertions ⟨.Message, message_id⟩ kind payload).run store =
      .ok (coalescedPayload kind payload (superseded store message_id kind)) removed := by
    unfold coalesce_pending_assertions
    rw [run_read_bind, list_pending_supersedes, coalesceInto_eq hpatches hpayload]
  have hrest : removed.outbox.operations = store.outbox.operations.filter fun operation =>
      !supersedes ⟨.Message, message_id⟩ kind operation := operations_without_superseded
  have habsent : removed.outbox.get_operation queued.id = none := by
    rw [OutboxTable.get_operation_eq_none_iff] at hfresh ⊢
    intro operation hmem
    rw [hrest] at hmem
    exact hfresh operation (List.mem_filter.mp hmem).1
  have hoperations := OutboxTable.operations_enqueue_of_fresh _ habsent
  have hstored := OutboxTable.get_of_mem (hoperations ▸ List.mem_append_right _ List.mem_cons_self)
  refine ⟨queued, { removed with outbox := removed.outbox.enqueue_operation queued }, ?_, rfl, ?_⟩
  · unfold queue_operation_with_id enqueue_operation
    rw [if_pos hkind, effects.run_bind_of_ok hcoalesce, run_outbox_bind, run_read_bind, ← hqueued]
    simp only [hstored]
    rfl
  · rw [← hrest]
    exact hoperations

end Log

section Preservation

/-- Two replays show the same keywords, the same mailboxes and the same destroyed flag. -/
def SameReplay : Option MessageRecord → Option MessageRecord → Prop
  | none, none => True
  | some first, some second =>
    (∀ keyword, keyword ∈ first.keywords ↔ keyword ∈ second.keywords) ∧
      ∀ mailbox_id, mailbox_id ∈ first.mailbox_ids ↔ mailbox_id ∈ second.mailbox_ids
  | _, _ => False

/-- The last word on a keyword when the new patch simply joins the log. -/
def newestWord (folded : List Operation) (newer : SetKeywordsCommand) : Override String Bool :=
  Override.onto (fun keyword => (mention newer keyword).verdict) (Override.latest (folded.map operationPatch))

/-- The last word on a keyword when the superseded patches are merged under the
    new one, oldest first, and the merged patch joins what is left of the log. -/
def coalescedWord (folded superseded : List Operation) (newer : SetKeywordsCommand) : Override String Bool :=
  Override.onto
    (fun keyword =>
      (carried keyword (mention newer keyword) (superseded.map fun operation => patchOf operation.payload)).verdict)
    (Override.latest (folded.map operationPatch))

/-- When coalescing keeps the replay: it merges no patches, or a Destroy is
    folded anyway, or every keyword's last word survives the merge. -/
def CoalescingKeeps (store : DatabaseStore) (message_id : MessageId) (kind : OperationKind) (payload : Value)
    (record : MessageRecord) : Prop :=
  kind = .SetKeywords → superseded store message_id kind ≠ [] →
    (∀ operation ∈ foldedAssertions store message_id, operation.kind ≠ .Destroy) →
    ∀ keyword,
      (coalescedWord
        ((foldedAssertions store message_id).filter fun operation => !supersedes ⟨.Message, message_id⟩ kind operation)
        (superseded store message_id kind) (patchOf payload)).settle (carries record.keywords) keyword =
      (newestWord (foldedAssertions store message_id) (patchOf payload)).settle (carries record.keywords) keyword

private theorem sameReplay_iff {record : MessageRecord} {first second : List MessageAssertion}
    (hmoves : moves first record.mailbox_ids = moves second record.mailbox_ids)
    (hdestroy : MessageAssertion.Destroy ∈ first ↔ MessageAssertion.Destroy ∈ second) :
    SameReplay (withOutcome record (replay_message (foldState record) first))
        (withOutcome record (replay_message (foldState record) second)) ↔
      (MessageAssertion.Destroy ∉ first → ∀ keyword,
        (Override.latest (second.map assertionPatch)).settle (carries record.keywords) keyword =
          (Override.latest (first.map assertionPatch)).settle (carries record.keywords) keyword) := by
  have hfirstRemoved := replay_message_eq_Removed_iff (foldState record) first
  have hsecondRemoved := replay_message_eq_Removed_iff (foldState record) second
  rw [← hdestroy, ← hfirstRemoved] at hsecondRemoved
  cases hfirst : replay_message (foldState record) first with
  | Removed =>
    rw [hsecondRemoved.mpr hfirst]
    simp [withOutcome, SameReplay, hfirstRemoved.mp hfirst]
  | Present firstState =>
    cases hsecond : replay_message (foldState record) second with
    | Removed =>
      rw [hsecondRemoved.mp hsecond] at hfirst
      cases hfirst
    | Present secondState =>
      obtain ⟨hfirstKeywords, hfirstMoves⟩ := replay_message_present hfirst
      obtain ⟨hsecondKeywords, hsecondMoves⟩ := replay_message_present hsecond
      have hmailboxes : firstState.mailbox_ids = secondState.mailbox_ids := by
        rw [hfirstMoves, hsecondMoves]
        exact hmoves
      have hpresent : MessageAssertion.Destroy ∉ first := by
        rw [← hfirstRemoved, hfirst]
        simp
      have hbase : (foldState record).keywords = record.keywords := rfl
      rw [← hbase, ← hfirstKeywords, ← hsecondKeywords]
      simp only [withOutcome, SameReplay, hmailboxes, implies_true, and_true, hpresent, not_false_eq_true,
        forall_const, carries, decide_eq_decide]
      exact ⟨fun h keyword => (h keyword).symm, fun h keyword => (h keyword).symm⟩

private theorem moves_map_filter {operations : List Operation} {kept : Operation → Bool}
    (hdropped : ∀ operation ∈ operations, kept operation = false → assertionMove (assertionOf operation) = id)
    (mailbox_ids : List String) :
    moves ((operations.filter kept).map assertionOf) mailbox_ids = moves (operations.map assertionOf) mailbox_ids := by
  induction operations generalizing mailbox_ids with
  | nil => rfl
  | cons operation rest ih =>
    have hrest := ih fun other hmem => hdropped other (List.mem_cons_of_mem _ hmem)
    cases hkept : kept operation with
    | true =>
      rw [List.filter_cons_of_pos hkept]
      exact hrest _
    | false =>
      have hid := hdropped operation List.mem_cons_self hkept
      rw [List.filter_cons_of_neg (by simp [hkept]), hrest]
      simp [moves, hid]

private theorem asserts_setKeywords (operation_id : OperationId) (message_id : MessageId)
    (command : SetKeywordsCommand) (now : Timestamp) :
    Asserts (newOperation operation_id ⟨.Message, message_id⟩ .SetKeywords (to_value command) none none now) := by
  have hintent : (newOperation operation_id ⟨.Message, message_id⟩ .SetKeywords (to_value command) none none
      now).intent = .ok (.SetKeywords command) := by
    simp [Operation.intent, newOperation, MailIntent.from_parts, MailIntent.decode]
  exact asserts_of_effect rfl (intent_fold_effect_eq_ok_iff.mpr ⟨_, hintent, rfl⟩)

private theorem asserts_coalesced {kind : OperationKind} {payload : Value} {message_id : MessageId}
    {operation_id : OperationId} {now : Timestamp} {superseded : List Operation}
    (hasserts : Asserts (newOperation operation_id ⟨.Message, message_id⟩ kind payload none none now)) :
    Asserts (newOperation operation_id ⟨.Message, message_id⟩ kind (coalescedPayload kind payload superseded)
      none none now) := by
  unfold coalescedPayload
  split_ifs with hmerge
  · obtain ⟨rfl, _⟩ := hmerge
    exact asserts_setKeywords operation_id message_id _ now
  · exact hasserts

theorem entity_of_foldedAssertions {store : DatabaseStore} {message_id : MessageId} {operation : Operation}
    (hmem : operation ∈ foldedAssertions store message_id) :
    operation.entity.id = message_id ∧ operation.kind.is_state_assertion = true := by
  rw [foldedAssertions_eq] at hmem
  have hasserts := (List.mem_filter.mp hmem).2
  simp only [assertsOn, Bool.and_eq_true, decide_eq_true_eq] at hasserts
  exact ⟨by rw [hasserts.1.2], hasserts.2⟩

/-- The log replays over a base row exactly when each of its assertions decodes. -/
theorem replayRow_eq_ok_iff {store : DatabaseStore} {message_id : MessageId} {record : MessageRecord}
    (hrecord : record.id = message_id) {replayed : Option MessageRecord} :
    replayRow store message_id record = .ok replayed ↔
      (∀ operation ∈ foldedAssertions store message_id, Asserts operation) ∧
        replayed = withOutcome record
          (replay_message (foldState record) ((foldedAssertions store message_id).map assertionOf)) := by
  have hentity : ∀ operation ∈ foldedAssertions store message_id, operation.entity.id = record.id :=
    fun operation hmem => (entity_of_foldedAssertions hmem).1.trans hrecord.symm
  unfold replayRow
  constructor
  · intro hreplay
    obtain ⟨assertions, hdecode, hreplayed⟩ := message_assertions_of_project hreplay
    have hasserts := asserts_of_message_assertions hentity
      (fun operation hmem => (entity_of_foldedAssertions hmem).2) hdecode
    rw [message_assertions_of_asserts hentity hasserts] at hdecode
    obtain rfl := Except.ok.inj hdecode
    exact ⟨hasserts, hreplayed⟩
  · rintro ⟨hasserts, rfl⟩
    exact project_record_eq (message_assertions_of_asserts hentity hasserts)

theorem foldedAssertions_of_operations {store after : DatabaseStore} {message_id : MessageId} {kept : Operation → Bool}
    {operation : Operation} (hoperations : after.outbox.operations = store.outbox.operations.filter kept ++ [operation])
    (hasserts : assertsOn message_id operation) :
    foldedAssertions after message_id = (foldedAssertions store message_id).filter kept ++ [operation] := by
  simp only [foldedAssertions_eq, hoperations, List.filter_append, List.filter_cons, hasserts, if_true,
    List.filter_nil, List.filter_filter, Bool.and_comm]

private theorem kind_of_supersedes {entity : OperationEntity} {kind : OperationKind} {operation : Operation}
    (hkind : kind ≠ .Destroy) (hsupersedes : supersedes entity kind operation) : operation.kind = kind := by
  simp only [supersedes, Bool.and_eq_true] at hsupersedes
  cases kind with
  | SetKeywords | ReplaceMailboxes => simpa using hsupersedes.2
  | Destroy => exact absurd rfl hkind
  | DraftCreate | DraftUpdate | DraftDelete | Send => simp at hsupersedes

private theorem destroy_mem_iff {operations : List Operation} (hasserts : ∀ operation ∈ operations, Asserts operation) :
    MessageAssertion.Destroy ∈ operations.map assertionOf ↔ ∃ operation ∈ operations, operation.kind = .Destroy := by
  rw [List.mem_map]
  constructor
  · rintro ⟨operation, hmem, hdestroy⟩
    exact ⟨operation, hmem, (assertionOf_of_other (hasserts operation hmem)).2.mpr hdestroy⟩
  · rintro ⟨operation, hmem, hkind⟩
    exact ⟨operation, hmem, (assertionOf_of_other (hasserts operation hmem)).2.mp hkind⟩

private theorem latest_assertions {operations : List Operation}
    (hasserts : ∀ operation ∈ operations, Asserts operation)
    (hassertion : ∀ operation ∈ operations, operation.kind.is_state_assertion = true) :
    Override.latest ((operations.map assertionOf).map assertionPatch) =
      Override.latest (operations.map operationPatch) := by
  rw [List.map_map]
  congr 1
  exact List.map_congr_left fun operation hmem =>
    assertionPatch_assertionOf (hassertion operation hmem) (hasserts operation hmem)

/-- Two logs of assertions on a message that move it alike and destroy it alike
    replay alike exactly when they end on the same word about every keyword. -/
private theorem sameReplay_operations_iff {record : MessageRecord} {first second : List Operation}
    (hfirst : ∀ operation ∈ first, Asserts operation ∧ operation.kind.is_state_assertion = true)
    (hsecond : ∀ operation ∈ second, Asserts operation ∧ operation.kind.is_state_assertion = true)
    (hmoves : moves (first.map assertionOf) record.mailbox_ids = moves (second.map assertionOf) record.mailbox_ids)
    (hdestroy : (∃ operation ∈ first, operation.kind = .Destroy) ↔ ∃ operation ∈ second, operation.kind = .Destroy) :
    SameReplay (withOutcome record (replay_message (foldState record) (first.map assertionOf)))
        (withOutcome record (replay_message (foldState record) (second.map assertionOf))) ↔
      ((∀ operation ∈ first, operation.kind ≠ .Destroy) → ∀ keyword,
        (Override.latest (second.map operationPatch)).settle (carries record.keywords) keyword =
          (Override.latest (first.map operationPatch)).settle (carries record.keywords) keyword) := by
  have hfirstAsserts := fun operation hmem => (hfirst operation hmem).1
  have hsecondAsserts := fun operation hmem => (hsecond operation hmem).1
  rw [sameReplay_iff hmoves (by rw [destroy_mem_iff hfirstAsserts, destroy_mem_iff hsecondAsserts, hdestroy]),
    latest_assertions hfirstAsserts fun operation hmem => (hfirst operation hmem).2,
    latest_assertions hsecondAsserts fun operation hmem => (hsecond operation hmem).2,
    destroy_mem_iff hfirstAsserts]
  simp only [not_exists, not_and, ne_eq]

section Queued

variable {store : DatabaseStore} {message_id : MessageId} {kind : OperationKind} {payload : Value}
  {operation_id : OperationId} {now : Timestamp}

private theorem moves_concat (operations : List Operation) (last : Operation) (mailbox_ids : List String) :
    moves ((operations ++ [last]).map assertionOf) mailbox_ids =
      assertionMove (assertionOf last) (moves (operations.map assertionOf) mailbox_ids) := by
  simp [moves]

private theorem latest_operations_concat (operations : List Operation) (last : Operation) :
    Override.latest ((operations ++ [last]).map operationPatch) =
      (operationPatch last).onto (Override.latest (operations.map operationPatch)) := by
  rw [List.map_append, List.map_singleton, Override.latest_concat]

private theorem move_of_keep {operation : Operation} (hkind : operation.kind = .SetKeywords)
    (hasserts : Asserts operation) : assertionMove (assertionOf operation) = id := by
  rw [(from_value_of_asserts hkind hasserts).2]
  rfl

/-- The word the queued operation adds: the merged patch's, if anything was merged. -/
private theorem operationPatch_coalesced {superseded : List Operation} (hsuperseded : superseded ≠ []) :
    operationPatch (newOperation operation_id ⟨.Message, message_id⟩ .SetKeywords
        (coalescedPayload .SetKeywords payload superseded) none none now) =
      fun keyword => (carried keyword (mention (patchOf payload) keyword)
        (superseded.map fun operation => patchOf operation.payload)).verdict := by
  funext keyword
  simp [operationPatch, newOperation, coalescedPayload, hsuperseded, mention_coalescedPatch]

variable {record : MessageRecord} {appendedOp queued : Operation} {folded : List Operation} {kept : Operation → Bool}

private theorem exists_destroy_filter_iff {last other : Operation}
    (hdropped : ∀ operation ∈ folded, kept operation = false → operation.kind ≠ .Destroy)
    (hlast : last.kind = other.kind) :
    (∃ operation ∈ folded ++ [last], operation.kind = .Destroy) ↔
      ∃ operation ∈ folded.filter kept ++ [other], operation.kind = .Destroy := by
  constructor
  · rintro ⟨operation, hmem, hdestroy⟩
    rcases List.mem_append.mp hmem with hmem | hmem
    · have hkept : kept operation = true := by
        by_contra hnot
        exact hdropped operation hmem (by simpa using hnot) hdestroy
      exact ⟨operation, List.mem_append_left _ (List.mem_filter.mpr ⟨hmem, hkept⟩), hdestroy⟩
    · rw [List.mem_singleton.mp hmem] at hdestroy
      exact ⟨other, List.mem_append_right _ List.mem_cons_self, hlast ▸ hdestroy⟩
  · rintro ⟨operation, hmem, hdestroy⟩
    rcases List.mem_append.mp hmem with hmem | hmem
    · exact ⟨operation, List.mem_append_left _ (List.mem_filter.mp hmem).1, hdestroy⟩
    · rw [List.mem_singleton.mp hmem] at hdestroy
      exact ⟨last, List.mem_append_right _ List.mem_cons_self, hlast.trans hdestroy⟩

/-- A Destroy at the end of both logs removes the message from both replays. -/
private theorem sameReplay_of_destroy {first second : List Operation} {last other : Operation}
    (hlast : Asserts last ∧ last.kind = .Destroy) (hother : Asserts other ∧ other.kind = .Destroy) :
    SameReplay (withOutcome record (replay_message (foldState record) ((first ++ [last]).map assertionOf)))
      (withOutcome record (replay_message (foldState record) ((second ++ [other]).map assertionOf))) := by
  have hremoved : ∀ (operations : List Operation) (operation : Operation),
      Asserts operation ∧ operation.kind = .Destroy →
      replay_message (foldState record) ((operations ++ [operation]).map assertionOf) = .Removed := by
    intro operations operation hdestroy
    rw [replay_message_eq_Removed_iff, List.map_append, List.mem_append]
    exact Or.inr (by simp [(assertionOf_of_other hdestroy.1).2.mp hdestroy.2])
  rw [hremoved first last hlast, hremoved second other hother]
  trivial

/-- Dropping mailbox replacements from under a newer one changes nothing. -/
private theorem sameReplay_replaceMailboxes
    (hlog : ∀ operation ∈ folded ++ [appendedOp], Asserts operation ∧ operation.kind.is_state_assertion = true)
    (hlast : appendedOp.kind = .ReplaceMailboxes)
    (hdropped : ∀ operation ∈ folded, kept operation = false → operation.kind = .ReplaceMailboxes) :
    SameReplay (withOutcome record (replay_message (foldState record) ((folded ++ [appendedOp]).map assertionOf)))
      (withOutcome record
        (replay_message (foldState record) ((folded.filter kept ++ [appendedOp]).map assertionOf))) := by
  have hkept : ∀ operation ∈ folded.filter kept ++ [appendedOp],
      Asserts operation ∧ operation.kind.is_state_assertion = true := by
    intro operation hmem
    refine hlog operation (List.mem_append.mpr ?_)
    exact (List.mem_append.mp hmem).imp (fun hmem => (List.mem_filter.mp hmem).1) id
  refine (sameReplay_operations_iff hlog hkept ?_ ?_).mpr ?_
  · obtain ⟨mailbox_ids, hreplace⟩ :=
      (assertionOf_of_other (hlog appendedOp (List.mem_append_right _ List.mem_cons_self)).1).1 hlast
    rw [moves_concat, moves_concat, hreplace]
    rfl
  · exact exists_destroy_filter_iff (fun operation hmem hdrop => by simp [hdropped operation hmem hdrop]) rfl
  · intro _ keyword
    rw [latest_operations_concat, latest_operations_concat, Override.latest_map_filter]
    intro operation hmem hdrop
    simp [operationPatch, hdropped operation hmem hdrop]

/-- Merging keyword patches keeps the memberships and the destroyed flag, so the
    replays agree exactly when the last words about the keywords do. -/
private theorem sameReplay_setKeywords_iff
    (hlog : ∀ operation ∈ folded ++ [appendedOp], Asserts operation ∧ operation.kind.is_state_assertion = true)
    (hkept : ∀ operation ∈ folded.filter kept ++ [queued],
      Asserts operation ∧ operation.kind.is_state_assertion = true)
    (hlast : appendedOp.kind = .SetKeywords) (hqueued : appendedOp.kind = queued.kind)
    (hdropped : ∀ operation ∈ folded, kept operation = false → operation.kind = .SetKeywords) :
    SameReplay (withOutcome record (replay_message (foldState record) ((folded ++ [appendedOp]).map assertionOf)))
        (withOutcome record (replay_message (foldState record) ((folded.filter kept ++ [queued]).map assertionOf))) ↔
      ((∀ operation ∈ folded, operation.kind ≠ .Destroy) → ∀ keyword,
        ((operationPatch queued).onto (Override.latest ((folded.filter kept).map operationPatch))).settle
            (carries record.keywords) keyword =
          ((operationPatch appendedOp).onto (Override.latest (folded.map operationPatch))).settle
            (carries record.keywords) keyword) := by
  have hmove : assertionMove (assertionOf appendedOp) = id :=
    move_of_keep hlast (hlog appendedOp (List.mem_append_right _ List.mem_cons_self)).1
  have hqueuedMove : assertionMove (assertionOf queued) = id :=
    move_of_keep (hqueued ▸ hlast) (hkept queued (List.mem_append_right _ List.mem_cons_self)).1
  have hdroppedMove : ∀ operation ∈ folded, kept operation = false → assertionMove (assertionOf operation) = id :=
    fun operation hmem hdrop =>
      move_of_keep (hdropped operation hmem hdrop) (hlog operation (List.mem_append_left _ hmem)).1
  rw [sameReplay_operations_iff hlog hkept
    (by rw [moves_concat, moves_concat, moves_map_filter hdroppedMove, hmove, hqueuedMove])
    (exists_destroy_filter_iff (fun operation hmem hdrop => by simp [hdropped operation hmem hdrop]) hqueued),
    latest_operations_concat, latest_operations_concat]
  simp [or_imp, forall_and, hlast]

end Queued

/-- Coalescing a new assertion shows what appending it would show exactly when
    every keyword's last word survives the merge of the superseded patches. -/
theorem coalescing_preserves_replay_iff (store : DatabaseStore) (message_id : MessageId) {kind : OperationKind}
    (hkind : kind.is_state_assertion) (payload : Value) {operation_id : OperationId}
    (hfresh : store.outbox.get_operation operation_id = none) (now : Timestamp) {record : MessageRecord}
    (hrecord : record.id = message_id) {appended : Option MessageRecord}
    (happended : replayRow { store with
        outbox := store.outbox.enqueue_operation
          (newOperation operation_id ⟨.Message, message_id⟩ kind payload none none now) } message_id record =
      .ok appended) :
    ∃ queued after coalesced,
      (queue_operation_with_id operation_id ⟨.Message, message_id⟩ kind payload none none now).run store =
        .ok queued after ∧
      replayRow after message_id record = .ok coalesced ∧
      (SameReplay appended coalesced ↔ CoalescingKeeps store message_id kind payload record) := by
  set appendedOp := newOperation operation_id ⟨.Message, message_id⟩ kind payload none none now with hop
  set kept : Operation → Bool := fun operation => !supersedes ⟨.Message, message_id⟩ kind operation with hkept
  have hassertsOn : ∀ payload, assertsOn message_id
      (newOperation operation_id ⟨.Message, message_id⟩ kind payload none none now) = true := by
    intro payload
    simp [assertsOn, is_replayable, newOperation, hkind]
  have hlog : foldedAssertions { store with outbox := store.outbox.enqueue_operation appendedOp } message_id =
      foldedAssertions store message_id ++ [appendedOp] := by
    have hoperations := @OutboxTable.operations_enqueue_of_fresh store.outbox appendedOp hfresh
    rw [← List.filter_true (foldedAssertions store message_id)]
    exact foldedAssertions_of_operations (by rw [List.filter_true]; exact hoperations) (hassertsOn payload)
  obtain ⟨hasserts, rfl⟩ := (replayRow_eq_ok_iff hrecord).mp happended
  rw [hlog] at hasserts ⊢
  have hnew : Asserts appendedOp := hasserts appendedOp (List.mem_append_right _ List.mem_cons_self)
  have hfolded : ∀ operation ∈ foldedAssertions store message_id,
      Asserts operation ∧ operation.kind.is_state_assertion = true :=
    fun operation hmem =>
      ⟨hasserts operation (List.mem_append_left _ hmem), (entity_of_foldedAssertions hmem).2⟩
  have hsuperseded : ∀ operation ∈ superseded store message_id kind, operation ∈ foldedAssertions store message_id := by
    intro operation hmem
    obtain ⟨hstored, hsupersedes⟩ := List.mem_filter.mp hmem
    rw [foldedAssertions_eq]
    exact List.mem_filter.mpr ⟨hstored, (folds_of_supersedes hsupersedes).1⟩
  have hpatches : kind = .SetKeywords → ∀ operation ∈ superseded store message_id kind,
      operation.kind = .SetKeywords ∧ from_value operation.payload = .ok (patchOf operation.payload) := by
    intro hset operation hmem
    have hoperationKind : operation.kind = .SetKeywords :=
      (kind_of_supersedes (by simp [hset]) (List.mem_filter.mp hmem).2).trans hset
    exact ⟨hoperationKind, (from_value_of_asserts hoperationKind (hfolded operation (hsuperseded operation hmem)).1).1⟩
  have hpayload : kind = .SetKeywords → from_value payload = .ok (patchOf payload) := by
    intro hset
    have hopKind : appendedOp.kind = .SetKeywords := hset
    exact (from_value_of_asserts hopKind hnew).1
  obtain ⟨queued, after, hrun, hqueued, hoperations⟩ :=
    @queue_assertion_eq _ message_id _ payload _ now hkind hfresh hpatches hpayload
  have hlogged : ∀ operation ∈ foldedAssertions store message_id ++ [appendedOp],
      Asserts operation ∧ operation.kind.is_state_assertion = true := by
    intro operation hmem
    rcases List.mem_append.mp hmem with hmem | hmem
    · exact hfolded operation hmem
    · rw [List.mem_singleton.mp hmem]
      exact ⟨hnew, hkind⟩
  have hqueuedAsserts : Asserts queued := hqueued ▸ asserts_coalesced hnew
  have hafter := foldedAssertions_of_operations hoperations (hqueued ▸ hassertsOn _)
  have hkeptFolded : ∀ operation ∈ (foldedAssertions store message_id).filter kept ++ [queued],
      Asserts operation ∧ operation.kind.is_state_assertion = true := by
    intro operation hmem
    rcases List.mem_append.mp hmem with hmem | hmem
    · exact hfolded operation (List.mem_filter.mp hmem).1
    · rw [List.mem_singleton.mp hmem]
      exact ⟨hqueuedAsserts, by rw [hqueued]; exact hkind⟩
  refine ⟨queued, after, _, hrun, (replayRow_eq_ok_iff hrecord).mpr ⟨?_, rfl⟩, ?_⟩
  · rw [hafter]
    exact fun operation hmem => (hkeptFolded operation hmem).1
  rw [hafter]
  have hdropped : kind ≠ .Destroy → ∀ operation ∈ foldedAssertions store message_id,
      kept operation = false → operation.kind = kind :=
    fun hne operation _ hdrop => kind_of_supersedes hne (by simpa [hkept] using hdrop)
  have hqueuedKind : appendedOp.kind = queued.kind := by rw [hqueued]; rfl
  cases kind with
  | DraftCreate | DraftUpdate | DraftDelete | Send => cases hkind
  | Destroy =>
    exact iff_of_true (sameReplay_of_destroy ⟨hnew, rfl⟩ ⟨hqueuedAsserts, hqueuedKind ▸ rfl⟩) fun hset => by cases hset
  | ReplaceMailboxes =>
    have hsame : queued = appendedOp := hqueued
    rw [hsame]
    exact iff_of_true (sameReplay_replaceMailboxes hlogged rfl (hdropped (by simp))) fun hset => by cases hset
  | SetKeywords =>
    rw [sameReplay_setKeywords_iff hlogged hkeptFolded rfl hqueuedKind (hdropped (by simp))]
    unfold CoalescingKeeps
    by_cases hnone : superseded store message_id .SetKeywords = []
    · have hall : (foldedAssertions store message_id).filter kept = foldedAssertions store message_id := by
        refine List.filter_eq_self.mpr fun operation hmem => ?_
        rw [foldedAssertions_eq] at hmem
        have hnot : operation ∉ superseded store message_id .SetKeywords := by simp [hnone]
        have hstored := (List.mem_filter.mp hmem).1
        simpa [hkept, superseded, hstored] using hnot
      have hsame : queued = appendedOp := by rw [hqueued, hnone]; rfl
      rw [hall, hsame]
      simp [hnone]
    · rw [hqueued, operationPatch_coalesced hnone]
      simp only [forall_const, ne_eq, hnone, not_false_eq_true]
      rfl

/-- A queued keyword patch on one message. -/
def keywordPatch (operation_id : OperationId) (add remove : List String) : Operation :=
  newOperation operation_id ⟨.Message, "m1"⟩ .SetKeywords (to_value ({ add, remove } : SetKeywordsCommand)) none none
    "2026-01-01T00:00:00Z"

/-- A patch that came back to pending behind a newer one: the first adds `x`, the second removes it. -/
def twoPendingPatches : DatabaseStore :=
  { DatabaseStore.empty with
    outbox := OutboxTable.enqueue_operation
      (OutboxTable.enqueue_operation Table.empty (keywordPatch "o1" ["x"] [])) (keywordPatch "o2" [] ["x"]) }

def unflaggedRecord : MessageRecord := { (default : MessageRecord) with id := "m1" }

theorem coalescing_preserves_replay_iff_twoPendingPatches :
    ∃ queued after coalesced,
      (queue_operation_with_id "o3" ⟨.Message, "m1"⟩ .SetKeywords
          (to_value ({ add := ["y"], remove := [] } : SetKeywordsCommand)) none none "2026-01-01T00:00:00Z").run
        twoPendingPatches = .ok queued after ∧
      replayRow after "m1" unflaggedRecord = .ok coalesced ∧
      (SameReplay (some { unflaggedRecord with keywords := ["y"] }) coalesced ↔
        CoalescingKeeps twoPendingPatches "m1" .SetKeywords
          (to_value ({ add := ["y"], remove := [] } : SetKeywordsCommand)) unflaggedRecord) :=
  coalescing_preserves_replay_iff twoPendingPatches "m1" rfl _ rfl "2026-01-01T00:00:00Z" rfl rfl

/-- With two pending patches the oldest decides: `x` was removed last, and the
    coalesced log shows it again. -/
theorem coalescing_lets_oldest_patch_decide :
    ∃ appended queued after coalesced,
      replayRow { twoPendingPatches with
        outbox := twoPendingPatches.outbox.enqueue_operation (keywordPatch "o3" ["y"] []) } "m1" unflaggedRecord =
          .ok appended ∧
      (queue_operation_with_id "o3" ⟨.Message, "m1"⟩ .SetKeywords
          (to_value ({ add := ["y"], remove := [] } : SetKeywordsCommand)) none none "2026-01-01T00:00:00Z").run
        twoPendingPatches = .ok queued after ∧
      replayRow after "m1" unflaggedRecord = .ok coalesced ∧
      ¬ SameReplay appended coalesced := by
  refine ⟨some { unflaggedRecord with keywords := ["y"] }, _, _,
    some { unflaggedRecord with keywords := ["x", "y"] }, rfl, rfl, rfl, ?_⟩
  simp [SameReplay]

end Preservation

end posthaste.service
