import Posthaste.Interleaving.Steps

open serde posthaste.model posthaste.store posthaste.service

namespace posthaste.interleaving

def Event.swapOf (id : OperationId) : Event → Option Value
  | .swapped other payload => if other = id then some payload else none
  | _ => none

def Event.isClaim (id : OperationId) : Event → Bool
  | .claimed other => other = id
  | _ => false

/-- The newest payload that `replace_operation_payload` accepted. -/
def lastAccepted (id : OperationId) (history : List Event) : Option Value := history.findSome? (Event.swapOf id)

/-- The newest payload accepted before the operation's newest claim. -/
def acceptedBeforeClaim (id : OperationId) (history : List Event) : Option Value :=
  lastAccepted id (history.dropWhile fun event => !event.isClaim id)

/-- No payload swap is accepted between the pass's read of an operation and its claim. -/
def swapsOutsideRead (machine : Machine) : Action → Bool
  | .swap id _ _ =>
    match machine.flusher with
    | .fetched operation _ => operation.id ≠ id || !machine.outbox.matchesState id (· == .Pending)
    | _ => true
  | _ => true

/-- A draft save with this payload. -/
def Saves (operation : Operation) (payload : Value) : Prop :=
  operation.payload = payload ∧ operation.kind.is_draft_save = true

section

variable {machine after : Machine} {action : Action} {id : OperationId}

theorem lastAccepted_cons_of_none {event : Event} {history : List Event} (hevent : event.swapOf id = none) :
    lastAccepted id (event :: history) = lastAccepted id history := by
  unfold lastAccepted
  rw [List.findSome?_cons, hevent]

theorem acceptedBeforeClaim_cons {event : Event} {history : List Event} (hevent : event.isClaim id = false) :
    acceptedBeforeClaim id (event :: history) = acceptedBeforeClaim id history := by
  unfold acceptedBeforeClaim
  rw [List.dropWhile_cons, hevent]
  rfl

theorem acceptedBeforeClaim_claimed (id : OperationId) (history : List Event) :
    acceptedBeforeClaim id (.claimed id :: history) = lastAccepted id history := by
  unfold acceptedBeforeClaim
  rw [List.dropWhile_cons]
  simp only [Event.isClaim, decide_true, Bool.not_true, Bool.false_eq_true, if_false]
  exact lastAccepted_cons_of_none rfl

/-- A move that records neither a swap nor a claim of the operation keeps both readings. -/
private theorem readings_kept (hhistory : after.history = machine.history ∨
      ∃ event : Event, after.history = event :: machine.history ∧ event.swapOf id = none ∧ event.isClaim id = false) :
    lastAccepted id after.history = lastAccepted id machine.history ∧
      acceptedBeforeClaim id after.history = acceptedBeforeClaim id machine.history := by
  rcases hhistory with hsame | ⟨event, hcons, hswap, hclaim⟩
  · rw [hsame]
    exact ⟨rfl, rfl⟩
  · rw [hcons]
    exact ⟨lastAccepted_cons_of_none hswap, acceptedBeforeClaim_cons hclaim⟩

/-- Each move records a swap, records a claim, or keeps both readings of every id. -/
private theorem Move.readings (hmove : Move machine action after) (id : OperationId) :
    (∃ payload now, action = .swap id payload now ∧ after.history = .swapped id payload :: machine.history) ∨
    (∃ operation queue, machine.flusher = .fetched operation queue ∧ operation.id = id ∧
      after.flusher = .claimed operation queue ∧ after.history = .claimed id :: machine.history) ∨
    lastAccepted id after.history = lastAccepted id machine.history ∧
      acceptedBeforeClaim id after.history = acceptedBeforeClaim id machine.history := by
  cases hmove with
  | quiet _ _ hhistory | fetched _ _ _ _ hhistory | parked _ _ _ _ hhistory | dropped _ _ _ _ hhistory =>
    exact .inr (.inr (readings_kept (.inl hhistory)))
  | enqueued _ _ _ _ _ hhistory | discarded _ _ _ _ hhistory | retried _ _ _ hhistory | settled _ _ _ _ hhistory =>
    exact .inr (.inr (readings_kept (.inr ⟨_, hhistory, rfl, rfl⟩)))
  | handed _ _ _ hhistory | failed _ _ _ _ hhistory =>
    refine .inr (.inr (readings_kept ?_))
    split_ifs at hhistory
    · exact .inr ⟨_, hhistory, rfl, rfl⟩
    · exact .inl hhistory
  | @swapped target payload now stored _ hstored hkind hstate hrows hflusher hhistory =>
    by_cases hid : target = id
    · subst hid
      exact .inl ⟨payload, now, rfl, hhistory⟩
    · exact .inr (.inr (readings_kept (.inr ⟨_, hhistory, if_neg hid, rfl⟩)))
  | @claimed now operation stored queue _ hfetched hfresh hstored hflushable hrows hflusher hhistory =>
    by_cases hid : operation.id = id
    · subst hid
      exact .inr (.inl ⟨operation, queue, hfetched, rfl, hflusher, hhistory⟩)
    · exact .inr (.inr (readings_kept (.inr ⟨_, hhistory, rfl, decide_eq_false hid⟩)))

/-- Only an accepted swap changes what is stored under an id, and it records what it stores. -/
private theorem Move.content_kept (hmove : Move machine action after) {written : Operation}
    (hwritten : after.rows id = some written) :
    lastAccepted id after.history = lastAccepted id machine.history ∧
      (machine.isNew id = true ∨
        ∃ stored, machine.rows id = some stored ∧ stored.payload = written.payload ∧ stored.kind = written.kind) ∨
    ∃ payload, after.history = .swapped id payload :: machine.history ∧ Saves written payload := by
  have hmap : ∀ {target : OperationId} {rewrite : Operation → Operation},
      after.rows = Function.update machine.rows target ((machine.rows target).map rewrite) →
      (∀ operation, operation.payload = (rewrite operation).payload ∧ operation.kind = (rewrite operation).kind) →
      ∃ stored, machine.rows id = some stored ∧ stored.payload = written.payload ∧ stored.kind = written.kind := by
    intro target rewrite hrows hrewrite
    exact @stored_of_map _ _ target id rewrite
      (fun first second => first.payload = second.payload ∧ first.kind = second.kind) hrows _ hwritten
      (fun _ => ⟨rfl, rfl⟩) hrewrite
  rcases hmove.readings id with ⟨payload, now, rfl, hhistory⟩ | hother
  · cases hmove with
    | quiet _ _ hsame =>
      rw [hhistory] at hsame
      exact absurd hsame (List.cons_ne_self _ _)
    | swapped hstored hkind hstate hrows =>
      rw [hrows, Function.update_self] at hwritten
      cases hwritten
      exact .inr ⟨payload, hhistory, rfl, hkind⟩
  · have hlast : lastAccepted id after.history = lastAccepted id machine.history := by
      rcases hother with ⟨_, _, _, _, _, hhistory⟩ | ⟨hsame, _⟩
      · rw [hhistory]
        exact lastAccepted_cons_of_none rfl
      · exact hsame
    cases hmove with
    | quiet hrows | fetched _ _ hrows | handed _ hrows =>
      rw [hrows] at hwritten
      exact .inl ⟨hlast, .inr ⟨written, hwritten, rfl, rfl⟩⟩
    | discarded _ _ hrows | dropped _ _ hrows =>
      exact .inl ⟨hlast, .inr ⟨written, stored_of_remove hrows hwritten, rfl, rfl⟩⟩
    | retried _ hrows | parked _ _ hrows | settled _ _ hrows | failed _ _ hrows =>
      exact .inl ⟨hlast, .inr (hmap hrows fun _ => ⟨rfl, rfl⟩)⟩
    | @claimed now operation stored queue _ hfetched hfresh hstored hflushable hrows hflusher hhistory =>
      refine .inl ⟨hlast, .inr (@hmap operation.id
        (fun stored => { stored with state := .Inflight, updated_at := now }) ?_ fun _ => ⟨rfl, rfl⟩)⟩
      rw [hrows, hstored]
      rfl
    | @enqueued operation _ hnew hstate hattempts hrows hflusher hhistory =>
      rw [hrows] at hwritten
      by_cases hid : id = operation.id
      · rw [hid] at hlast ⊢
        exact .inl ⟨hlast, .inl hnew⟩
      · rw [Function.update_of_ne hid] at hwritten
        exact .inl ⟨hlast, .inr ⟨written, hwritten, rfl, rfl⟩⟩
    | @swapped target payload now stored _ hstored hkind hstate hrows hflusher hhistory =>
      rw [hrows] at hwritten
      by_cases hid : id = target
      · subst hid
        rw [Function.update_self] at hwritten
        cases hwritten
        exact .inr ⟨payload, hhistory, rfl, hkind⟩
      · rw [Function.update_of_ne hid] at hwritten
        exact .inl ⟨hlast, .inr ⟨written, hwritten, rfl, rfl⟩⟩

/-- What was accepted last is stored, is what the pass read, and is what the pass pushes
    when it was accepted before the claim. -/
structure SwapsKept (machine : Machine) : Prop where
  enqueued {id : OperationId} {payload : Value} :
    .swapped id payload ∈ machine.history → .enqueued id ∈ machine.history
  stored {id : OperationId} {stored : Operation} {payload : Value} :
    machine.rows id = some stored → lastAccepted id machine.history = some payload → Saves stored payload
  fetched {operation : Operation} {queue : List OperationId} {payload : Value} :
    machine.flusher = .fetched operation queue → lastAccepted operation.id machine.history = some payload →
      Saves operation payload
  claimed {operation : Operation} {queue : List OperationId} {payload : Value} :
    machine.flusher = .claimed operation queue ∨ machine.flusher = .pushed operation queue →
      acceptedBeforeClaim operation.id machine.history = some payload → Saves operation payload
  handed {operation : Operation} {queue : List OperationId} :
    machine.flusher = .pushed operation queue → handsOver operation = true → .handed operation ∈ machine.history
  settled {operation : Operation} {older : List Event} {payload : Value} :
    .settled operation :: older <:+ machine.history → acceptedBeforeClaim operation.id older = some payload →
      operation.payload = payload ∧ .handed operation ∈ older

theorem swapped_of_lastAccepted {history : List Event} {payload : Value}
    (haccepted : lastAccepted id history = some payload) : .swapped id payload ∈ history := by
  obtain ⟨event, hmem, hevent⟩ := List.exists_of_findSome?_eq_some haccepted
  cases event with
  | swapped other accepted =>
    simp only [Event.swapOf, Option.ite_none_right_eq_some, Option.some.injEq] at hevent
    obtain ⟨rfl, rfl⟩ := hevent
    exact hmem
  | _ => cases hevent

private theorem SwapsKept.enqueued_move (htraced : Traced machine) (hkept : SwapsKept machine)
    (hmove : Move machine action after) {payload : Value} (hswapped : .swapped id payload ∈ after.history) :
    .enqueued id ∈ after.history := by
  have hold : Event.swapped id payload ∈ machine.history → Event.enqueued id ∈ after.history :=
    fun hbefore => hmove.mem_history (hkept.enqueued hbefore)
  cases hmove with
  | quiet _ _ hhistory | fetched _ _ _ _ hhistory | parked _ _ _ _ hhistory | dropped _ _ _ _ hhistory =>
    rw [hhistory] at hswapped
    exact hold hswapped
  | enqueued _ _ _ _ _ hhistory | discarded _ _ _ _ hhistory | retried _ _ _ hhistory | settled _ _ _ _ hhistory
    | claimed _ _ _ _ _ _ hhistory =>
    rw [hhistory] at hswapped
    exact hold (List.mem_of_ne_of_mem (by simp) hswapped)
  | handed _ _ _ hhistory | failed _ _ _ _ hhistory =>
    rw [hhistory] at hswapped
    split_ifs at hswapped
    · exact hold (List.mem_of_ne_of_mem (by simp) hswapped)
    · exact hold hswapped
  | swapped hstored _ _ _ _ hhistory =>
    rw [hhistory] at hswapped ⊢
    rcases List.mem_cons.mp hswapped with heq | hbefore
    · cases heq
      exact List.mem_cons_of_mem _ (htraced.stored_enqueued hstored)
    · exact List.mem_cons_of_mem _ (hkept.enqueued hbefore)

theorem lastAccepted_swapped (id : OperationId) (payload : Value) (history : List Event) :
    lastAccepted id (.swapped id payload :: history) = some payload := by
  simp [lastAccepted, Event.swapOf]

private theorem SwapsKept.stored_move (hkept : SwapsKept machine) (hmove : Move machine action after)
    {written : Operation} {payload : Value} (hwritten : after.rows id = some written)
    (haccepted : lastAccepted id after.history = some payload) : Saves written payload := by
  rcases hmove.content_kept hwritten with ⟨hlast, hnew | ⟨stored, hstored, hpayload, hkind⟩⟩ | ⟨swapped, hhistory, hsaves⟩
  · rw [hlast] at haccepted
    exact absurd (hkept.enqueued (swapped_of_lastAccepted haccepted)) (isNew_eq_true_iff.mp hnew)
  · rw [hlast] at haccepted
    have hsaves := hkept.stored hstored haccepted
    exact ⟨hpayload.symm.trans hsaves.1, hkind ▸ hsaves.2⟩
  · rw [hhistory, lastAccepted_swapped] at haccepted
    cases haccepted
    exact hsaves

/-- What the pass has read but not claimed it had read before, or reads now from the row. -/
private theorem Move.fetched_kept (hmove : Move machine action after) {operation : Operation}
    {queue : List OperationId} (hfetched : after.flusher = .fetched operation queue) :
    machine.flusher = .fetched operation queue ∨
      machine.rows operation.id = some operation ∧ after.history = machine.history := by
  cases hmove with
  | quiet hrows hflusher hhistory =>
    rcases hflusher with hnone | hsame
    · rw [hfetched] at hnone
      cases hnone
    · exact .inl (hsame ▸ hfetched)
  | enqueued _ _ _ _ hflusher | swapped _ _ _ _ hflusher | discarded _ _ _ hflusher | retried _ _ hflusher =>
    exact .inl (hflusher ▸ hfetched)
  | fetched hstored hflushable hrows hflusher hhistory =>
    rw [hflusher] at hfetched
    cases hfetched
    exact .inr ⟨hstored, hhistory⟩
  | claimed _ _ _ _ _ hflusher | handed _ _ hflusher | parked _ _ _ hflusher | settled _ _ _ hflusher
    | dropped _ _ _ hflusher =>
    rw [hfetched] at hflusher
    cases hflusher
  | failed _ _ _ hflusher =>
    rw [hfetched] at hflusher
    cases hflusher

private theorem SwapsKept.fetched_move (hkept : SwapsKept machine) (hguard : swapsOutsideRead machine action = true)
    (hmove : Move machine action after) {operation : Operation} {queue : List OperationId} {payload : Value}
    (hfetched : after.flusher = .fetched operation queue)
    (haccepted : lastAccepted operation.id after.history = some payload) : Saves operation payload := by
  rcases hmove.fetched_kept hfetched with hbefore | ⟨hstored, hhistory⟩
  · refine hkept.fetched hbefore ?_
    rcases hmove.readings operation.id with ⟨swapped, now, rfl, hhistory⟩ | ⟨_, _, _, _, hclaimed, _⟩ | ⟨hsame, _⟩
    · -- The guard keeps accepted swaps away from what the pass has read.
      have hpending : machine.outbox.matchesState operation.id (· == .Pending) = false := by
        simpa [swapsOutsideRead, hbefore] using hguard
      cases hmove with
      | quiet _ _ hsame =>
        rw [hhistory] at hsame
        exact absurd hsame (List.cons_ne_self _ _)
      | swapped hstored hkind hstate =>
        have hnot := (OutboxTable.matchesState_eq_false_iff _ _).mp hpending _ hstored
        rw [hstate] at hnot
        cases hnot
    · rw [hfetched] at hclaimed
      cases hclaimed
    · rw [← hsame]
      exact haccepted
  · rw [hhistory] at haccepted
    exact hkept.stored hstored haccepted

/-- What the pass claimed it had claimed before, or claims now from its read; a push keeps it. -/
private theorem Move.dispatched_kept (hmove : Move machine action after) {operation : Operation}
    {queue : List OperationId} (hdispatched : after.flusher = .claimed operation queue ∨ after.flusher = .pushed operation queue) :
    (machine.flusher = .claimed operation queue ∨ machine.flusher = .pushed operation queue) ∨
      machine.flusher = .fetched operation queue ∧ after.history = .claimed operation.id :: machine.history := by
  cases hmove with
  | quiet hrows hflusher hhistory =>
    rcases hflusher with hnone | hsame
    · rcases hdispatched with hafter | hafter <;> rw [hafter] at hnone <;> cases hnone
    · exact .inl (hsame ▸ hdispatched)
  | enqueued _ _ _ _ hflusher | swapped _ _ _ _ hflusher | discarded _ _ _ hflusher | retried _ _ hflusher =>
    exact .inl (hflusher ▸ hdispatched)
  | claimed hfetched hfresh hstored hflushable hrows hflusher hhistory =>
    rw [hflusher] at hdispatched
    rcases hdispatched with hafter | hafter <;> cases hafter
    exact .inr ⟨hfetched, hhistory⟩
  | handed hclaimed hrows hflusher hhistory =>
    rw [hflusher] at hdispatched
    rcases hdispatched with hafter | hafter <;> cases hafter
    exact .inl (.inl hclaimed)
  | fetched _ _ _ hflusher | parked _ _ _ hflusher | settled _ _ _ hflusher | dropped _ _ _ hflusher =>
    rw [hflusher] at hdispatched
    rcases hdispatched with hafter | hafter <;> cases hafter
  | failed _ _ _ hflusher => rcases hdispatched with hafter | hafter <;> rw [hafter] at hflusher <;> cases hflusher

private theorem SwapsKept.claimed_move (hkept : SwapsKept machine) (hmove : Move machine action after)
    {operation : Operation} {queue : List OperationId} {payload : Value}
    (hdispatched : after.flusher = .claimed operation queue ∨ after.flusher = .pushed operation queue)
    (haccepted : acceptedBeforeClaim operation.id after.history = some payload) : Saves operation payload := by
  rcases hmove.dispatched_kept hdispatched with hbefore | ⟨hfetched, hhistory⟩
  · refine hkept.claimed hbefore ?_
    rcases hmove.readings operation.id with ⟨_, _, _, hhistory⟩ | ⟨_, _, hfetched, _⟩ | ⟨_, hsame⟩
    · rw [hhistory, acceptedBeforeClaim_cons rfl] at haccepted
      exact haccepted
    · rw [hfetched] at hbefore
      rcases hbefore with hbefore | hbefore <;> cases hbefore
    · rw [← hsame]
      exact haccepted
  · rw [hhistory, acceptedBeforeClaim_claimed] at haccepted
    exact hkept.fetched hfetched haccepted

private theorem SwapsKept.handed_move (hkept : SwapsKept machine) (hmove : Move machine action after)
    {operation : Operation} {queue : List OperationId} (hpushed : after.flusher = .pushed operation queue)
    (hhands : handsOver operation = true) : .handed operation ∈ after.history := by
  have hold : machine.flusher = .pushed operation queue → Event.handed operation ∈ after.history :=
    fun hbefore => hmove.mem_history (hkept.handed hbefore hhands)
  cases hmove with
  | quiet hrows hflusher hhistory =>
    rcases hflusher with hnone | hsame
    · rw [hpushed] at hnone
      cases hnone
    · exact hold (hsame ▸ hpushed)
  | enqueued _ _ _ _ hflusher | swapped _ _ _ _ hflusher | discarded _ _ _ hflusher | retried _ _ hflusher =>
    exact hold (hflusher ▸ hpushed)
  | handed hclaimed hrows hflusher hhistory =>
    rw [hflusher] at hpushed
    cases hpushed
    rw [hhistory, if_pos hhands]
    exact List.mem_cons_self
  | fetched _ _ _ hflusher | parked _ _ _ hflusher | settled _ _ _ hflusher | dropped _ _ _ hflusher
    | claimed _ _ _ _ _ hflusher =>
    rw [hpushed] at hflusher
    cases hflusher
  | failed _ _ _ hflusher =>
    rw [hpushed] at hflusher
    cases hflusher

/-- What settles decodes, so a settled draft save was handed over. -/
theorem handsOver_of_settled {operation : Operation} {reply : Reply} {watermark : Option String}
    (hdraft : operation.kind.is_draft_save = true)
    (hsettlement : settlementOf operation reply = some (.settled watermark)) : handsOver operation = true := by
  unfold settlementOf at hsettlement
  unfold handsOver
  cases hintent : operation.intent with
  | error message => simp [hintent] at hsettlement
  | ok intent =>
    have hkind := MailIntent.kind_of_from_parts hintent
    cases intent with
    | Send | SaveDraft => rfl
    | SetKeywords | ReplaceMailboxes | Destroy | DiscardDraft =>
      rw [← hkind] at hdraft
      cases hdraft

private theorem SwapsKept.settled_move (hkept : SwapsKept machine) (hmove : Move machine action after)
    {operation : Operation} {older : List Event} {payload : Value}
    (hsettled : .settled operation :: older <:+ after.history)
    (haccepted : acceptedBeforeClaim operation.id older = some payload) :
    operation.payload = payload ∧ .handed operation ∈ older := by
  have hold : .settled operation :: older <:+ machine.history →
      operation.payload = payload ∧ Event.handed operation ∈ older :=
    fun hbefore => hkept.settled hbefore haccepted
  have hcons : ∀ event : Event, event ≠ .settled operation → after.history = event :: machine.history →
      operation.payload = payload ∧ Event.handed operation ∈ older := by
    intro event hne hhistory
    rw [hhistory] at hsettled
    rcases List.suffix_cons_iff.mp hsettled with heq | hbefore
    · exact absurd (List.cons.inj heq).1.symm hne
    · exact hold hbefore
  cases hmove with
  | quiet _ _ hhistory | fetched _ _ _ _ hhistory | parked _ _ _ _ hhistory | dropped _ _ _ _ hhistory =>
    exact hold (hhistory ▸ hsettled)
  | enqueued _ _ _ _ _ hhistory | discarded _ _ _ _ hhistory | retried _ _ _ hhistory
    | swapped _ _ _ _ _ hhistory | claimed _ _ _ _ _ _ hhistory =>
    exact hcons _ (by simp) hhistory
  | handed _ _ _ hhistory | failed _ _ _ _ hhistory =>
    split_ifs at hhistory
    · exact hcons _ (by simp) hhistory
    · exact hold (hhistory ▸ hsettled)
  | settled hpushed hsettlement hrows hflusher hhistory =>
    rw [hhistory] at hsettled
    rcases List.suffix_cons_iff.mp hsettled with heq | hbefore
    · cases heq
      have hsaves := hkept.claimed (.inr hpushed) haccepted
      exact ⟨hsaves.1, hkept.handed hpushed (handsOver_of_settled hsaves.2 hsettlement)⟩
    · exact hold hbefore

theorem swapsKept_of_reachable
    (hreach : flushSystem.Reachable (fun machine action => swapsOutsideRead machine action = true) machine) :
    SwapsKept machine := by
  refine invariant_of_move ?_ ?_ hreach
  · exact
      { enqueued := fun hswapped => by cases hswapped
        stored := fun hstored => by cases hstored
        fetched := fun hfetched => by cases hfetched
        claimed := fun hclaimed => by rcases hclaimed with hclaimed | hclaimed <;> cases hclaimed
        handed := fun hpushed => by cases hpushed
        settled := fun hsettled => by cases List.suffix_nil.mp hsettled }
  · intro before action after htraced hkept hguard hmove
    exact
      { enqueued := hkept.enqueued_move htraced hmove
        stored := hkept.stored_move hmove
        fetched := hkept.fetched_move hguard hmove
        claimed := hkept.claimed_move hmove
        handed := hkept.handed_move hmove
        settled := hkept.settled_move hmove }

/-- Where no swap lands between the pass's read and its claim, the payload a settling
    push handed over is the last one accepted before the claim. -/
theorem accepted_save_is_pushed
    (hreach : flushSystem.Reachable (fun machine action => swapsOutsideRead machine action = true) machine)
    {operation : Operation} {older : List Event} (hsettled : .settled operation :: older <:+ machine.history)
    {payload : Value} (haccepted : acceptedBeforeClaim operation.id older = some payload) :
    operation.payload = payload ∧ .handed operation ∈ older :=
  (swapsKept_of_reachable hreach).settled hsettled haccepted

end

/-- A draft's content, told apart by its subject. -/
def draftPayload (subject : String) : Value := to_value { (default : SendMessageRequest) with subject }

def queuedDraft : Operation :=
  newOperation "o1" ⟨.Draft, "key"⟩ .DraftCreate (draftPayload "first") none none "2026-01-01T00:00:00Z"

/-- A second save is accepted before the pass reads the operation. -/
def savedBeforeRead : List Action :=
  [.enqueue queuedDraft, .passBegin "2026-01-01T00:00:00Z" 0,
    .swap "o1" (draftPayload "second") "2026-01-01T00:00:00Z", .passRead, .passClaim "2026-01-01T00:00:00Z",
    .passPush, .passSettle (.accepted none) 0 "2026-01-01T00:00:00Z"]

/-- The second save is accepted after the pass read the operation and before it claimed it. -/
def savedBehindRead : List Action :=
  [.enqueue queuedDraft, .passBegin "2026-01-01T00:00:00Z" 0, .passRead,
    .swap "o1" (draftPayload "second") "2026-01-01T00:00:00Z", .passClaim "2026-01-01T00:00:00Z",
    .passPush, .passSettle (.accepted none) 0 "2026-01-01T00:00:00Z"]

theorem accepted_save_is_pushed_savedBeforeRead :
    ∃ machine operation older,
      flushSystem.Reachable (fun machine action => swapsOutsideRead machine action = true) machine ∧
      .settled operation :: older <:+ machine.history ∧
      acceptedBeforeClaim operation.id older = some (draftPayload "second") ∧
      operation.payload = draftPayload "second" ∧ .handed operation ∈ older := by
  have hreach := @reachable_ran swapsOutsideRead savedBeforeRead rfl
  have hlast : ∃ operation older, (Machine.ran swapsOutsideRead savedBeforeRead).history =
      .settled operation :: older ∧ acceptedBeforeClaim operation.id older = some (draftPayload "second") :=
    ⟨_, _, rfl, rfl⟩
  obtain ⟨operation, older, hhistory, haccepted⟩ := hlast
  have hsettled : .settled operation :: older <:+ (Machine.ran swapsOutsideRead savedBeforeRead).history :=
    hhistory ▸ List.suffix_rfl
  exact ⟨_, operation, older, hreach, hsettled, haccepted, accepted_save_is_pushed hreach hsettled haccepted⟩

/-- The push that settles the draft carries the first save; the second was reported accepted. -/
theorem accepted_save_is_lost :
    ∃ machine operation older, flushSystem.Reachable TransitionSystem.unguarded machine ∧
      .settled operation :: older <:+ machine.history ∧
      acceptedBeforeClaim operation.id older = some (draftPayload "second") ∧
      operation.payload ≠ draftPayload "second" := by
  have hreach := @reachable_ran (fun _ _ => true) savedBehindRead rfl
  have hlast : ∃ operation older, (Machine.ran (fun _ _ => true) savedBehindRead).history =
      .settled operation :: older ∧ acceptedBeforeClaim operation.id older = some (draftPayload "second") ∧
      operation.payload = draftPayload "first" := ⟨_, _, rfl, rfl, rfl⟩
  obtain ⟨operation, older, hhistory, haccepted, hpayload⟩ := hlast
  refine ⟨_, operation, older, hreach.forget, ?_, haccepted, ?_⟩
  · exact hhistory ▸ List.suffix_rfl
  · rw [hpayload]
    intro hsame
    have hsubject : (draftPayload "first").get "subject" = (draftPayload "second").get "subject" := by rw [hsame]
    have hfirst : (draftPayload "first").get "subject" = some (.string "first") := rfl
    have hsecond : (draftPayload "second").get "subject" = some (.string "second") := rfl
    rw [hfirst, hsecond] at hsubject
    simp at hsubject

end posthaste.interleaving
