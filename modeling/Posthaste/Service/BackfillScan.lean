import Posthaste.Service.Backfill
import Posthaste.Service.LastWord

open posthaste.model posthaste.store effects

namespace posthaste.service

open MailService

section Acts

variable {reading : Reading} {store after : DatabaseStore} {item : MessageSummary} {action : AutomationAction}
  {minted : Minted} {rule : AutomationRule} {id : MessageId}

/-- The mutation an action queues when it queues one. -/
def mutationOf : AutomationAction → AutomationMutation
  | .ApplyTag tag => .set_keywords { add := [tag], remove := [] }
  | .RemoveTag tag => .set_keywords { add := [], remove := [tag] }
  | .MarkRead => .set_keywords { add := ["$seen"], remove := [] }
  | .MarkUnread => .set_keywords { add := [], remove := ["$seen"] }
  | .Flag => .set_keywords { add := ["$flagged"], remove := [] }
  | .Unflag => .set_keywords { add := [], remove := ["$flagged"] }
  | .MoveToMailbox mailbox_id => .replace_mailboxes { mailbox_ids := [mailbox_id] }

theorem automation_mutation_eq (hsome : (automation_mutation item action).isSome) :
    automation_mutation item action = some (mutationOf action) := by
  cases action <;>
    · simp only [automation_mutation] at hsome ⊢
      split_ifs at hsome ⊢ with hnone
      · cases hsome
      · rfl

theorem mention_added (keyword : String) :
    mention ({ add := [keyword], remove := [] } : SetKeywordsCommand) keyword = .add := by
  simp [mention, Mention.of]

theorem mention_removed (keyword : String) :
    mention ({ add := [], remove := [keyword] } : SetKeywordsCommand) keyword = .remove := by
  simp [mention, Mention.of]

theorem apply_eq_set_keywords {command : SetKeywordsCommand}
    (hmutation : automation_mutation item action = some (.set_keywords command)) :
    apply_automation_action item action minted = set_keywords item.id command minted := by
  simp only [apply_automation_action, hmutation]

theorem apply_eq_replace_mailboxes {command : ReplaceMailboxesCommand}
    (hmutation : automation_mutation item action = some (.replace_mailboxes command)) :
    apply_automation_action item action minted = replace_mailboxes item.id command minted := by
  simp only [apply_automation_action, hmutation]

/-- A message that has what the action's keyword mutation adds, and nothing it removes, is not asked for. -/
theorem not_askedOf_of_mentions {command : SetKeywordsCommand} {message : ServedMessage}
    (hcommand : mutationOf action = .set_keywords command)
    (hadd : ∀ keyword, mention command keyword = .add → keyword ∈ message.keywords)
    (hremove : ∀ keyword, mention command keyword = .remove → keyword ∉ message.keywords) :
    ¬ AskedOf message action := by
  intro hasked
  cases action with
  | ApplyTag tag =>
    cases hcommand
    exact hasked (hadd tag (mention_added tag))
  | RemoveTag tag =>
    cases hcommand
    exact hremove tag (mention_removed tag) hasked
  | MarkRead | Flag =>
    cases hcommand
    exact hasked (hadd _ (mention_added _))
  | MarkUnread | Unflag =>
    cases hcommand
    exact hremove _ (mention_removed _) hasked
  | MoveToMailbox mailbox_id => cases hcommand

/-- An action that queued its mutation has nothing left to do for the message. -/
theorem not_askedOf_of_apply (hsome : (automation_mutation item action).isSome)
    (hfresh : store.outbox.get_operation minted.operation_id = none)
    (hrun : (apply_automation_action item action minted).run store = .ok () after) :
    Mutated store after item.id ∧
      ∀ message, reading.served after item.id = some message → ¬ AskedOf message action := by
  have hmutation := automation_mutation_eq hsome
  cases hqueued : mutationOf action with
  | set_keywords command =>
    rw [hqueued] at hmutation
    rw [apply_eq_set_keywords hmutation] at hrun
    obtain ⟨hmutated, row, hrow, hadd, hremove⟩ := mutated_of_set_keywords hfresh hrun
    refine ⟨hmutated, fun message hserved => ?_⟩
    rw [Reading.served, hrow, Option.map_some, Option.some.injEq] at hserved
    subst hserved
    exact not_askedOf_of_mentions hqueued hadd hremove
  | replace_mailboxes command =>
    rw [hqueued] at hmutation
    rw [apply_eq_replace_mailboxes hmutation] at hrun
    obtain ⟨hmutated, row, hrow, hfiled⟩ := mutated_of_replace_mailboxes hfresh hrun
    refine ⟨hmutated, fun message hserved hasked => ?_⟩
    rw [Reading.served, hrow, Option.map_some, Option.some.injEq] at hserved
    subst hserved
    cases action with
    | MoveToMailbox mailbox_id =>
      cases hqueued
      exact hasked ((hfiled mailbox_id).mpr List.mem_cons_self)
    | _ => cases hqueued

/-- What queueing an action for a message that matches does: it leaves every other message as it was, and the
    message no longer matches. -/
structure Acts (reading : Reading) (store after : DatabaseStore) (rule : AutomationRule) (action : AutomationAction)
    (id : MessageId) : Prop where
  matched : reading.selects store rule action id = true
  mailbox : after.mailbox = store.mailbox
  elsewhere : ∀ other, other ≠ id → reading.served after other = reading.served store other
  finished : reading.selects after rule action id = false

theorem acts_of_apply (hmatched : reading.selects store rule action item.id = true)
    (hsome : (automation_mutation item action).isSome)
    (hfresh : store.outbox.get_operation minted.operation_id = none)
    (hrun : (apply_automation_action item action minted).run store = .ok () after) :
    Acts reading store after rule action item.id := by
  obtain ⟨hmutated, hdone⟩ := @not_askedOf_of_apply reading _ _ _ _ _ hsome hfresh hrun
  refine ⟨hmatched, hmutated.mailbox, fun other hother => ?_, ?_⟩
  · exact served_congr (by rw [hmutated.message]) (hmutated.elsewhere other hother)
  · by_contra hselects
    rw [Bool.not_eq_false] at hselects
    obtain ⟨message, hserved, -⟩ := served_of_selects hselects
    exact hdone message hserved (askedOf_of_selects hselects hserved)

end Acts

/-- The pairs of rule and action a batch goes through, in order. -/
def pairsOf (rules : List AutomationRule) : List (AutomationRule × AutomationAction) :=
  rules.flatMap fun rule => rule.actions.map fun action => (rule, action)

def Reading.matchesPair (reading : Reading) (store : DatabaseStore) (id : MessageId)
    (pair : AutomationRule × AutomationAction) : Bool :=
  reading.selects store pair.1 pair.2 id

/-- How many pairs, from the first on, have nothing to do for a message. -/
def Reading.lead (reading : Reading) (pairs : List (AutomationRule × AutomationAction)) (store : DatabaseStore)
    (id : MessageId) : Nat :=
  pairs.findIdx (reading.matchesPair store id)

section Lead

variable {reading : Reading} {store after : DatabaseStore} {id : MessageId}
  {pairs asked : List (AutomationRule × AutomationAction)} {pair : AutomationRule × AutomationAction}

theorem lead_congr (hserved : reading.served after id = reading.served store id)
    (hmailbox : after.mailbox = store.mailbox) : reading.lead pairs after id = reading.lead pairs store id := by
  unfold Reading.lead
  have hsame : reading.matchesPair after id = reading.matchesPair store id := by
    funext pair
    exact selects_congr hserved hmailbox pair.1 pair.2
  rw [hsame]

theorem lead_le_length : reading.lead pairs store id ≤ pairs.length := List.findIdx_le_length

/-- A message leads up to the first pair that matches it. -/
theorem lead_of_first (hahead : asked ++ [pair] <+: pairs)
    (hasked : ∀ earlier ∈ asked, reading.matchesPair store id earlier = false) :
    (reading.matchesPair store id pair = true → reading.lead pairs store id = asked.length) ∧
      (reading.matchesPair store id pair = false → asked.length < reading.lead pairs store id) := by
  obtain ⟨later, rfl⟩ := hahead
  have hnone : ¬ ∃ earlier ∈ asked, reading.matchesPair store id earlier = true := by
    rintro ⟨earlier, hearlier, hmatches⟩
    rw [hasked earlier hearlier] at hmatches
    cases hmatches
  unfold Reading.lead
  rw [List.append_assoc, List.findIdx_append, if_neg (by simpa using hnone), List.singleton_append]
  constructor
  · intro hmatches
    rw [List.findIdx_cons, hmatches]
    simp
  · intro hmatches
    rw [List.findIdx_cons, hmatches]
    simp

end Lead

/-- Queueing left the message matching none of the pairs the batch had been through. -/
def Queued.Harmless (reading : Reading) (act : Queued) : Prop :=
  ∀ pair ∈ act.asked, reading.matchesPair act.after act.message_id pair = false

section Candidates

variable {reading : Reading} {store : DatabaseStore} {rule : AutomationRule} {action : AutomationAction} {limit : Nat}
  {items : List MessageSummary}

theorem ids_nodup_message_effective : ((reading.message_effective store).map (·.id)).Nodup := by
  unfold Reading.message_effective
  rw [List.map_filterMap]
  refine List.Nodup.filterMap ?_ (List.nodup_dedup _)
  intro first second id hfirst hsecond
  have hid : ∀ {own}, id ∈ ((reading.served store own).map (·.row)).map (·.id) → own = id := by
    intro own hown
    rw [Option.map_map] at hown
    obtain ⟨message, hserved, hsame⟩ := Option.map_eq_some_iff.mp hown
    exact (id_of_served hserved).2.symm.trans hsame
  exact (hid hfirst).trans (hid hsecond).symm

theorem selects_of_ruleSelects {row : smart_mailboxes.QueriedRow} (hrow : row ∈ reading.message_effective store)
    (hselected : smart_mailboxes.ruleSelects reading.functions (reading.archive store)
      (automation_query_rule reading.account_id rule action []) row = true) :
    reading.selects store rule action row.id = true := by
  obtain ⟨id, message, hserved, rfl⟩ := mem_message_effective.mp hrow
  rw [(id_of_served hserved).2, Reading.selects, hserved, Option.any_some]
  exact hselected

/-- A page of an action's query: messages that match, each once and with something to queue, and all of them when
    the page is not full. -/
theorem page_of_automation_query (hpositive : 1 ≤ limit) (hfits : limit + 1 < 2 ^ 64)
    (hquery : reading.query_message_page_by_rule store (automation_query_rule reading.account_id rule action []) limit =
      .ok items) :
    (items.map MessageSummary.id).Nodup ∧ items.length ≤ limit ∧
      (∀ item ∈ items, reading.selects store rule action item.id = true ∧ (automation_mutation item action).isSome) ∧
      (items.length < limit → ∀ id, reading.selects store rule action id = true → id ∈ items.map MessageSummary.id) := by
  obtain ⟨rows, rfl, hsublist, hlength, hall⟩ := page_of_query hpositive hfits hquery
  have hmem : ∀ row ∈ rows, row ∈ reading.message_effective store ∧
      smart_mailboxes.ruleSelects reading.functions (reading.archive store)
        (automation_query_rule reading.account_id rule action []) row = true := by
    intro row hrow
    exact List.mem_filter.mp (smart_mailboxes.SortDirection.mem_orderBy.mp (hsublist.subset hrow))
  have hids : (rows.map (hydrate_message_summary (reading.archive store))).map MessageSummary.id = rows.map (·.id) := by
    rw [List.map_map]
    rfl
  rw [hids, List.length_map]
  refine ⟨?_, hlength, ?_, ?_⟩
  · refine (hsublist.map _).nodup ?_
    refine (smart_mailboxes.SortDirection.perm_orderBy.map _).nodup_iff.mpr ?_
    exact ids_nodup_message_effective.sublist (List.filter_sublist.map _)
  · intro item hitem
    obtain ⟨row, hrow, rfl⟩ := List.mem_map.mp hitem
    obtain ⟨hstored, hselected⟩ := hmem row hrow
    exact ⟨selects_of_ruleSelects hstored hselected, mutation_of_asked (asked_of_ruleSelects hselected)⟩
  · intro hshort id hselects
    obtain ⟨message, hserved, hselected⟩ := served_of_selects hselects
    have hrow := hall hshort message.row (mem_message_effective.mpr ⟨id, message, hserved, rfl⟩) hselected
    rw [← (id_of_served hserved).2]
    exact List.mem_map_of_mem hrow

end Candidates

namespace Backfill

variable {backfill : Backfill} {start store after : DatabaseStore} {state next : BatchState} {rule : AutomationRule}
  {action : AutomationAction} {id : MessageId}

/-- A batch under way from a store on: what it has queued, and what that did to the messages. -/
structure Underway (backfill : Backfill) (start : DatabaseStore) (state : BatchState) (store : DatabaseStore) :
    Prop where
  counted : state.queued.length + state.remaining = backfill.batch_size
  mailbox : store.mailbox = start.mailbox
  untouched : ∀ id, (∀ act ∈ state.queued, act.message_id ≠ id) →
    backfill.reading.served store id = backfill.reading.served start id
  there : ∀ act ∈ state.queued, (backfill.reading.served start act.message_id).isSome
  risen : (∀ act ∈ state.queued, act.Harmless backfill.reading) → ∀ id,
    backfill.reading.lead (pairsOf backfill.eligible) start id ≤
        backfill.reading.lead (pairsOf backfill.eligible) store id ∧
      ((∃ act ∈ state.queued, act.message_id = id) →
        backfill.reading.lead (pairsOf backfill.eligible) start id <
          backfill.reading.lead (pairsOf backfill.eligible) store id)

/-- No message matches a pair the batch has been through, unless queueing did that. -/
def Clean (backfill : Backfill) (state : BatchState) (store : DatabaseStore) : Prop :=
  (∀ act ∈ state.queued, act.Harmless backfill.reading) →
    ∀ pair ∈ state.asked, ∀ id, backfill.reading.matchesPair store id pair = false

/-- Between two pairs: a batch has more exactly when it is out of room. -/
structure Between (backfill : Backfill) (start : DatabaseStore) (state : BatchState) (store : DatabaseStore) : Prop
    extends backfill.Underway start state store where
  full : state.has_more = true ↔ state.remaining = 0
  clean : state.remaining ≠ 0 → backfill.Clean state store

theorem Underway.of_counters (hunderway : backfill.Underway start state store) (hqueued : next.queued = state.queued)
    (hremaining : next.remaining = state.remaining) : backfill.Underway start next store := by
  obtain ⟨hcounted, hmailbox, huntouched, hthere, hrisen⟩ := hunderway
  rw [← hqueued] at huntouched hthere hrisen
  exact ⟨by rw [hqueued, hremaining]; exact hcounted, hmailbox, huntouched, hthere, hrisen⟩

/-- The state after one more mutation. -/
def queueing (state : BatchState) (rule : AutomationRule) (action : AutomationAction) (id : MessageId)
    (after : DatabaseStore) : BatchState :=
  { state with
    remaining := state.remaining - 1
    queued := state.queued ++ [⟨state.asked, rule, action, id, after⟩] }

/-- The step of the scan: one mutation raises its message and leaves the others. -/
theorem Underway.act (hunderway : backfill.Underway start state store) (hclean : backfill.Clean state store)
    (hroom : state.remaining ≠ 0) (hahead : state.asked ++ [(rule, action)] <+: pairsOf backfill.eligible)
    (hacts : Acts backfill.reading store after rule action id) :
    backfill.Underway start (queueing state rule action id after) after ∧
      backfill.Clean (queueing state rule action id after) after := by
  have hsplit : ∀ {property : Queued → Prop},
      (∀ act ∈ (queueing state rule action id after).queued, property act) →
        (∀ act ∈ state.queued, property act) ∧ property ⟨state.asked, rule, action, id, after⟩ := by
    intro property hall
    exact ⟨fun act hact => hall act (List.mem_append_left _ hact),
      hall _ (List.mem_append_right _ List.mem_cons_self)⟩
  have hother : ∀ other, other ≠ id → ∀ pair,
      backfill.reading.matchesPair after other pair = backfill.reading.matchesPair store other pair :=
    fun other hne pair => selects_congr (hacts.elsewhere other hne) hacts.mailbox pair.1 pair.2
  refine ⟨⟨?_, ?_, ?_, ?_, ?_⟩, ?_⟩
  · have hcounted := hunderway.counted
    show (state.queued ++ [_]).length + (state.remaining - 1) = _
    rw [List.length_append, List.length_singleton]
    omega
  · rw [hacts.mailbox, hunderway.mailbox]
  · intro other hnone
    obtain ⟨hqueued, hne⟩ := hsplit hnone
    rw [hacts.elsewhere other (Ne.symm hne), hunderway.untouched other hqueued]
  · have hthere : (backfill.reading.served start id).isSome := by
      by_cases hbefore : ∃ act ∈ state.queued, act.message_id = id
      · obtain ⟨act, hact, rfl⟩ := hbefore
        exact hunderway.there act hact
      · rw [← hunderway.untouched id fun act hact hsame => hbefore ⟨act, hact, hsame⟩]
        obtain ⟨message, hserved, -⟩ := served_of_selects hacts.matched
        rw [hserved]
        rfl
    intro act hact
    rcases List.mem_append.mp hact with hold | hnew
    · exact hunderway.there act hold
    · rw [List.mem_singleton.mp hnew]
      exact hthere
  · intro hharmless other
    obtain ⟨hbefore, hlast⟩ := hsplit hharmless
    obtain ⟨hle, hlt⟩ := hunderway.risen hbefore other
    by_cases hsame : other = id
    · subst hsame
      have hreached : backfill.reading.lead (pairsOf backfill.eligible) store other = state.asked.length :=
        (lead_of_first hahead fun pair hpair => hclean hbefore pair hpair other).1 hacts.matched
      have hpassed : state.asked.length < backfill.reading.lead (pairsOf backfill.eligible) after other :=
        (lead_of_first hahead hlast).2 hacts.finished
      exact ⟨by omega, fun _ => by omega⟩
    · rw [lead_congr (hacts.elsewhere other hsame) hacts.mailbox]
      refine ⟨hle, ?_⟩
      rintro ⟨act, hact, hid⟩
      rcases List.mem_append.mp hact with hold | hnew
      · exact hlt ⟨act, hold, hid⟩
      · rw [List.mem_singleton.mp hnew] at hid
        exact absurd hid.symm hsame
  · intro hharmless pair hpair other
    obtain ⟨hbefore, hlast⟩ := hsplit hharmless
    by_cases hsame : other = id
    · rw [hsame]
      exact hlast pair hpair
    · rw [hother other hsame]
      exact hclean hbefore pair hpair other

/-- The mint never hands out an id that is in the log. -/
def MintsFresh (backfill : Backfill) : Prop :=
  ∀ store : DatabaseStore, store.outbox.get_operation (backfill.mint store).operation_id = none

section Page

variable {items : List MessageSummary}

/-- Over a page that fits, every message has its mutation queued and no longer matches. -/
theorem Underway.page (hfresh : backfill.MintsFresh)
    (hunderway : backfill.Underway start state store) (hclean : backfill.Clean state store)
    (hahead : state.asked ++ [(rule, action)] <+: pairsOf backfill.eligible)
    (hdistinct : (items.map MessageSummary.id).Nodup) (hroom : items.length ≤ state.remaining)
    (hmatched : ∀ item ∈ items, backfill.reading.selects store rule action item.id = true ∧
      (automation_mutation item action).isSome)
    (hrun : (backfill.applyPage rule action items state).run store = .ok next after) :
    backfill.Underway start next after ∧ backfill.Clean next after ∧ next.asked = state.asked ∧
      next.remaining + items.length = state.remaining ∧
      (next.has_more = true → state.has_more = true ∨ next.remaining = 0) ∧
      (state.has_more = true → next.has_more = true) ∧
      ∀ id, backfill.reading.selects after rule action id = true →
        id ∉ items.map MessageSummary.id ∧ backfill.reading.selects store rule action id = true := by
  induction items generalizing state store with
  | nil =>
    cases hrun
    exact ⟨hunderway, hclean, rfl, rfl, Or.inl, id, fun _ hselects => ⟨List.not_mem_nil, hselects⟩⟩
  | cons item rest ih =>
    obtain ⟨hitem, hsome⟩ := hmatched item List.mem_cons_self
    rw [List.map_cons, List.nodup_cons] at hdistinct
    obtain ⟨hnew, hdistinct⟩ := hdistinct
    rw [List.length_cons] at hroom
    unfold applyPage at hrun
    rw [run_read_bind] at hrun
    obtain ⟨_, middle, hact, hrest⟩ := run_bind_eq_ok_iff.mp hrun
    rw [run_read_bind] at hrest
    have hacts := acts_of_apply hitem hsome (hfresh store) hact
    obtain ⟨hstep, hstepClean⟩ := hunderway.act hclean (by omega) hahead hacts
    rw [if_pos hsome] at hrest
    have hremaining : (queueing state rule action item.id middle).remaining = state.remaining - 1 := rfl
    by_cases hfull : state.remaining - 1 = 0
    · have hnil : rest = [] := List.eq_nil_of_length_eq_zero (by omega)
      subst hnil
      rw [if_pos hfull] at hrest
      cases hrest
      refine ⟨hstep.of_counters rfl rfl, hstepClean, rfl, ?_, fun _ => Or.inr hfull, fun _ => rfl, ?_⟩
      · show state.remaining - 1 + 1 = state.remaining
        omega
      · intro id hselects
        have hne : id ≠ item.id := by
          rintro rfl
          rw [hacts.finished] at hselects
          cases hselects
        refine ⟨by simpa using hne, ?_⟩
        rwa [selects_congr (hacts.elsewhere id hne) hacts.mailbox] at hselects
    · rw [if_neg hfull] at hrest
      have hlater : ∀ other ∈ rest, backfill.reading.selects middle rule action other.id = true ∧
          (automation_mutation other action).isSome := by
        intro other hother
        obtain ⟨hselects, hmutation⟩ := hmatched other (List.mem_cons_of_mem _ hother)
        have hne : other.id ≠ item.id := by
          intro hsame
          exact hnew (hsame ▸ List.mem_map_of_mem hother)
        rw [selects_congr (hacts.elsewhere other.id hne) hacts.mailbox]
        exact ⟨hselects, hmutation⟩
      obtain ⟨hlast, hlastClean, hasked, hcount, hmore, hkept, hleft⟩ :=
        ih hstep hstepClean hahead hdistinct (by omega) hlater hrest
      refine ⟨hlast, hlastClean, hasked, ?_, hmore, hkept, ?_⟩
      · rw [List.length_cons]
        omega
      · intro id hselects
        obtain ⟨hnone, hmiddle⟩ := hleft id hselects
        have hne : id ≠ item.id := by
          rintro rfl
          rw [hacts.finished] at hmiddle
          cases hmiddle
        rw [selects_congr (hacts.elsewhere id hne) hacts.mailbox] at hmiddle
        refine ⟨?_, hmiddle⟩
        rw [List.map_cons, List.mem_cons, not_or]
        exact ⟨hne, hnone⟩

end Page

section Scan

variable {rules : List AutomationRule} {actions : List AutomationAction}

/-- One pair: a page that is not full leaves no message that matches it. -/
theorem Between.through_action (hfresh : backfill.MintsFresh) (hfits : backfill.batch_size + 1 < 2 ^ 64)
    (hbetween : backfill.Between start state store) (hroom : state.remaining ≠ 0)
    (hahead : state.asked ++ [(rule, action)] <+: pairsOf backfill.eligible)
    (hrun : (backfill.applyAction rule action state).run store = .ok next after) :
    backfill.Between start next after ∧ next.asked = state.asked ++ [(rule, action)] := by
  have hcounted := hbetween.counted
  have hmore : state.has_more = false := by
    rw [← Bool.not_eq_true, hbetween.full]
    exact hroom
  unfold applyAction at hrun
  rw [run_read_bind] at hrun
  cases hquery : backfill.reading.query_message_page_by_rule store
      (automation_query_rule backfill.reading.account_id rule action []) state.remaining with
  | error error =>
    rw [hquery] at hrun
    cases hrun
  | ok items =>
    rw [hquery] at hrun
    obtain ⟨_, _, hread, hrest⟩ := run_bind_eq_ok_iff.mp hrun
    cases hread
    obtain ⟨paged, middle, hpage, hok⟩ := run_bind_eq_ok_iff.mp hrest
    cases hok
    obtain ⟨hdistinct, hlength, hmatched, hall⟩ := page_of_automation_query (by omega) (by omega) hquery
    set entered : BatchState := { state with has_more := state.has_more || items.length == state.remaining }
      with hentered
    have hunderway : backfill.Underway start entered store := hbetween.toUnderway.of_counters rfl rfl
    have hclean : backfill.Clean entered store := hbetween.clean hroom
    obtain ⟨hlast, hlastClean, hasked, hcount, hupper, hlower, hleft⟩ :=
      hunderway.page hfresh hclean hahead hdistinct hlength hmatched hpage
    have hremaining : paged.remaining + items.length = state.remaining := hcount
    have hcut : entered.has_more = true ↔ items.length = state.remaining := by
      simp only [hentered, hmore, Bool.false_or, beq_iff_eq]
    refine ⟨⟨hlast.of_counters rfl rfl, ?_, ?_⟩, by rw [← hasked]⟩
    · constructor
      · intro hhas
        rcases hupper hhas with hbefore | hnone
        · have hsame := hcut.mp hbefore
          show paged.remaining = 0
          omega
        · exact hnone
      · intro hnone
        have hnone : paged.remaining = 0 := hnone
        exact hlower (hcut.mpr (by omega))
    · intro hleftover hharmless pair hpair id
      have hleftover : paged.remaining ≠ 0 := hleftover
      rcases List.mem_append.mp hpair with hold | hnew
      · exact hlastClean hharmless pair hold id
      · rw [List.mem_singleton.mp hnew]
        by_contra hselects
        rw [Bool.not_eq_false] at hselects
        obtain ⟨hnone, hbefore⟩ := hleft id hselects
        exact hnone (hall (by omega) id hbefore)

/-- The scan's breaks leave a batch that is out of room. -/
theorem Between.stop (hbetween : backfill.Between start state store) (hfull : state.remaining = 0) :
    backfill.Between start { state with has_more := true } store :=
  ⟨hbetween.toUnderway.of_counters rfl rfl, iff_of_true rfl hfull, fun hroom => absurd hfull hroom⟩

theorem Between.through_actions (hfresh : backfill.MintsFresh) (hfits : backfill.batch_size + 1 < 2 ^ 64)
    (hbetween : backfill.Between start state store)
    (hahead : state.remaining ≠ 0 → state.asked ++ actions.map (fun action => (rule, action)) <+: pairsOf backfill.eligible)
    (hrun : (backfill.applyActions rule actions state).run store = .ok next after) :
    backfill.Between start next after ∧ (next.remaining ≠ 0 → state.remaining ≠ 0 ∧
      next.asked = state.asked ++ actions.map fun action => (rule, action)) := by
  induction actions generalizing state store with
  | nil =>
    cases hrun
    exact ⟨hbetween, fun hroom => ⟨hroom, (List.append_nil _).symm⟩⟩
  | cons action rest ih =>
    unfold applyActions at hrun
    by_cases hfull : state.remaining = 0
    · rw [if_pos hfull] at hrun
      cases hrun
      exact ⟨hbetween.stop hfull, fun hroom => absurd hfull hroom⟩
    · rw [if_neg hfull] at hrun
      obtain ⟨paged, middle, hhead, hrest⟩ := run_bind_eq_ok_iff.mp hrun
      have hall := hahead hfull
      rw [List.map_cons, ← List.singleton_append, ← List.append_assoc] at hall
      obtain ⟨hpaged, hasked⟩ := hbetween.through_action hfresh hfits hfull ((List.prefix_append _ _).trans hall) hhead
      obtain ⟨hlast, hdone⟩ := ih hpaged (fun _ => by rw [hasked]; exact hall) hrest
      refine ⟨hlast, fun hroom => ⟨hfull, ?_⟩⟩
      rw [(hdone hroom).2, hasked, List.append_assoc, List.singleton_append, List.map_cons]

theorem Between.through_rules (hfresh : backfill.MintsFresh) (hfits : backfill.batch_size + 1 < 2 ^ 64)
    (hbetween : backfill.Between start state store)
    (hahead : state.remaining ≠ 0 → state.asked ++ pairsOf rules <+: pairsOf backfill.eligible)
    (hrun : (backfill.applyRules rules state).run store = .ok next after) :
    backfill.Between start next after ∧ (next.remaining ≠ 0 → state.remaining ≠ 0 ∧
      next.asked = state.asked ++ pairsOf rules) := by
  induction rules generalizing state store with
  | nil =>
    cases hrun
    exact ⟨hbetween, fun hroom => ⟨hroom, (List.append_nil _).symm⟩⟩
  | cons rule rest ih =>
    unfold applyRules at hrun
    have hpairs : pairsOf (rule :: rest) = rule.actions.map (fun action => (rule, action)) ++ pairsOf rest :=
      List.flatMap_cons
    by_cases hfull : state.remaining = 0
    · rw [if_pos hfull] at hrun
      cases hrun
      exact ⟨hbetween.stop hfull, fun hroom => absurd hfull hroom⟩
    · rw [if_neg hfull] at hrun
      obtain ⟨through, middle, hhead, hrest⟩ := run_bind_eq_ok_iff.mp hrun
      have hall := hahead hfull
      rw [hpairs, ← List.append_assoc] at hall
      obtain ⟨hthrough, hasked⟩ :=
        hbetween.through_actions hfresh hfits (fun _ => (List.prefix_append _ _).trans hall) hhead
      obtain ⟨hlast, hdone⟩ := ih hthrough (fun hroom => by rw [(hasked hroom).2]; exact hall) hrest
      refine ⟨hlast, fun hroom => ⟨hfull, ?_⟩⟩
      obtain ⟨hmiddle, hsame⟩ := hdone hroom
      rw [hsame, (hasked hmiddle).2, hpairs, List.append_assoc]

/-- The run of the scan: it stops out of room, or has been through every pair and left no match. -/
theorem between_of_scan (hfresh : backfill.MintsFresh) (hsize : 1 ≤ backfill.batch_size)
    (hfits : backfill.batch_size + 1 < 2 ^ 64) (hrun : backfill.scan.run start = .ok state store) :
    backfill.Between start state store ∧ (state.remaining ≠ 0 → state.asked = pairsOf backfill.eligible) := by
  set entered : BatchState := { remaining := backfill.batch_size, has_more := false, asked := [], queued := [] }
    with hentered
  have hnothing : ∀ {act : Queued}, act ∉ entered.queued := List.not_mem_nil
  have hbetween : backfill.Between start entered start := by
    refine ⟨⟨?_, rfl, fun _ _ => rfl, ?_, ?_⟩, ?_, ?_⟩
    · show 0 + backfill.batch_size = backfill.batch_size
      omega
    · exact fun act hact => absurd hact hnothing
    · refine fun _ id => ⟨le_refl _, ?_⟩
      rintro ⟨act, hact, -⟩
      exact absurd hact hnothing
    · refine iff_of_false Bool.false_ne_true ?_
      show backfill.batch_size ≠ 0
      omega
    · exact fun _ _ pair hpair => absurd hpair List.not_mem_nil
  obtain ⟨hlast, hdone⟩ := hbetween.through_rules hfresh hfits (fun _ => List.prefix_refl _) hrun
  exact ⟨hlast, fun hroom => (hdone hroom).2⟩

end Scan

end Backfill

end posthaste.service
