import Posthaste.Library.Effects
import Posthaste.SmartMailboxes.RuleTrees

open posthaste.model

namespace posthaste.store.smart_mailboxes

/-- Two archives that say the same of one message: its mailboxes, its keywords, and the tables
    that are not about a message. -/
structure Agree (message : QueriedRow) (archive other : Archive) : Prop where
  source_projection : other.source_projection = archive.source_projection
  mailbox : other.mailbox = archive.mailbox
  message_fts : other.message_fts = archive.message_fts
  mailboxIds : mailboxIds other message = mailboxIds archive message
  keywordsOf : keywordsOf other message = keywordsOf archive message

/-- Fragments that bind the same values and answer the same of one message. -/
structure Alike (message : QueriedRow) (first second : Fragment) : Prop where
  values : second.2 = first.2
  placeholders : second.1.placeholders = first.1.placeholders
  eval : ∀ bindings, second.1.eval message.scope bindings = first.1.eval message.scope bindings

section Alike

variable {message : QueriedRow} {first second third last : Fragment}

theorem Alike.refl (fragment : Fragment) : Alike message fragment fragment := ⟨rfl, rfl, fun _ => rfl⟩

theorem Alike.run (halike : Alike message first second) :
    second.1.run message.scope second.2 = first.1.run message.scope first.2 := by
  rw [sql.Predicate.run, sql.Predicate.run, halike.values, halike.placeholders, halike.eval]

theorem Alike.negatedIf (halike : Alike message first second) (negated : Bool) :
    Alike message (negatedIf negated first) (negatedIf negated second) := by
  obtain ⟨hvalues, hplaceholders, heval⟩ := halike
  cases negated with
  | false => exact ⟨hvalues, hplaceholders, heval⟩
  | true =>
    refine ⟨hvalues, hplaceholders, fun bindings => ?_⟩
    show (second.1.eval message.scope bindings).map _ = (first.1.eval message.scope bindings).map _
    rw [heval]

theorem Alike.join (halike : Alike message first second) (hlast : Alike message third last)
    (operator : MailQueryGroupOperator) :
    Alike message (MailQueryGroupOperator.joiner operator first.1 third.1, first.2 ++ third.2)
      (MailQueryGroupOperator.joiner operator second.1 last.1, second.2 ++ last.2) := by
  obtain ⟨hvalues, hplaceholders, heval⟩ := halike
  obtain ⟨hlastValues, hlastPlaceholders, hlastEval⟩ := hlast
  refine ⟨by rw [hvalues, hlastValues], ?_, fun bindings => ?_⟩
  · cases operator <;> simp only [MailQueryGroupOperator.joiner, sql.Predicate.placeholders, hplaceholders,
      hlastPlaceholders]
  · cases operator <;> simp only [MailQueryGroupOperator.joiner, sql.Predicate.eval, hplaceholders, heval, hlastEval]

theorem Alike.joined {operator : MailQueryGroupOperator} {parts others : List Fragment}
    (halike : Alike message first second) (hparts : List.Forall₂ (Alike message) parts others) :
    Alike message (joined operator first parts) (joined operator second others) := by
  induction hparts generalizing first second with
  | nil => exact halike
  | cons hpart _ ih => exact ih (halike.join hpart operator)

/-- A subquery asks the same where it finds the same rows. -/
theorem alike_exists {rows others : Scope → List Scope} {body : SqlPredicate} {values : List SqlValue}
    (hrows : others message.scope = rows message.scope) :
    Alike message (.exists rows body, values) (.exists others body, values) := by
  refine ⟨rfl, rfl, fun bindings => ?_⟩
  simp only [sql.Predicate.eval, hrows]

/-- The second compiles to something alike whenever the first compiles. -/
def CompilesAlike (message : QueriedRow) (first second : Except StoreError Fragment) : Prop :=
  ∀ fragment, first = .ok fragment → ∃ other, second = .ok other ∧ Alike message fragment other

theorem compilesAlike_of_eq {compiled other : Except StoreError Fragment} (hsame : other = compiled) :
    CompilesAlike message compiled other :=
  fun fragment hcompiled => ⟨fragment, hsame.trans hcompiled, Alike.refl fragment⟩

/-- A compiler whose fragment is one subquery, over whatever rows it is given. -/
def CompilesSubquery (compile : (Scope → List Scope) → Except StoreError Fragment) : Prop :=
  (∀ rows fragment, compile rows ≠ .ok fragment) ∨
    ∃ body values, ∀ rows, compile rows = .ok (.exists rows body, values)

theorem CompilesSubquery.alike {compile : (Scope → List Scope) → Except StoreError Fragment}
    (hcompile : CompilesSubquery compile) {rows others : Scope → List Scope}
    (hrows : others message.scope = rows message.scope) : CompilesAlike message (compile rows) (compile others) := by
  intro fragment hcompiled
  obtain hnever | ⟨body, values, halways⟩ := hcompile
  · exact absurd hcompiled (hnever rows fragment)
  · rw [halways, Except.ok.injEq] at hcompiled
    subst hcompiled
    exact ⟨_, halways others, alike_exists hrows⟩

theorem compilesSubquery_of_bind {α : Type} {read : Except StoreError α} {body : α → SqlPredicate}
    {values : α → List SqlValue} :
    CompilesSubquery fun rows => read >>= fun value => pure (.exists rows (body value), values value) := by
  cases read with
  | error error => exact Or.inl fun _ _ hcompiled => by cases hcompiled
  | ok value => exact Or.inr ⟨body value, values value, fun _ => rfl⟩

theorem compilesSubquery_unsupported {condition : MailQueryCondition} :
    CompilesSubquery fun _ => unsupportedOperator condition :=
  Or.inl fun _ _ hcompiled => by cases hcompiled

theorem compilesSubquery_membership (condition : MailQueryCondition) (column : SqlScalar) :
    CompilesSubquery fun rows => compile_exists_membership condition rows column := by
  unfold compile_exists_membership
  cases condition.operator with
  | Equals => exact compilesSubquery_of_bind
  | In => exact compilesSubquery_of_bind
  | Contains | BeginsWith | EndsWith | Regex | Lt | Gt | Le | Ge => exact compilesSubquery_unsupported

theorem compilesSubquery_text_membership (functions : Functions) (condition : MailQueryCondition) (column : SqlScalar) :
    CompilesSubquery fun rows => compile_exists_text_membership functions condition rows column := by
  unfold compile_exists_text_membership
  cases condition.operator with
  | Equals => exact compilesSubquery_of_bind
  | Contains => exact compilesSubquery_of_bind
  | BeginsWith => exact compilesSubquery_of_bind
  | EndsWith => exact compilesSubquery_of_bind
  | Regex => exact compilesSubquery_of_bind
  | In => exact compilesSubquery_of_bind
  | Lt | Gt | Le | Ge => exact compilesSubquery_unsupported

end Alike

section Local

variable {functions : Functions} {message : QueriedRow} {archive other : Archive}

theorem membershipRows_eq (archive : Archive) (message : QueriedRow) :
    membershipRows archive message.scope =
      (mailboxIds archive message).map fun mailbox_id => { message.scope with mailbox_id := some mailbox_id } := by
  rw [membershipRows, mailboxIds, List.map_map]
  rfl

theorem keywordRows_eq (archive : Archive) (message : QueriedRow) :
    keywordRows archive message.scope =
      (keywordsOf archive message).map fun keyword => { message.scope with keyword := some keyword } := by
  rw [keywordRows, keywordsOf, List.map_map]
  rfl

theorem Agree.membershipRows (hagree : Agree message archive other) :
    membershipRows other message.scope = membershipRows archive message.scope := by
  rw [membershipRows_eq, membershipRows_eq, hagree.mailboxIds]

theorem Agree.mailboxRows (hagree : Agree message archive other) :
    mailboxRows other message.scope = mailboxRows archive message.scope := by
  rw [smart_mailboxes.mailboxRows, smart_mailboxes.mailboxRows, hagree.membershipRows, hagree.mailbox]

theorem Agree.keywordRows (hagree : Agree message archive other) :
    keywordRows other message.scope = keywordRows archive message.scope := by
  rw [keywordRows_eq, keywordRows_eq, hagree.keywordsOf]

theorem Agree.compileField (hagree : Agree message archive other) (condition : MailQueryCondition) :
    CompilesAlike message (compileField functions archive condition) (compileField functions other condition) := by
  unfold smart_mailboxes.compileField
  cases condition.field with
  | SourceName =>
    refine compilesAlike_of_eq ?_
    simp only [sourceName, hagree.source_projection]
  | Body =>
    refine compilesAlike_of_eq ?_
    have hmatched : matched other = matched archive := by
      funext value scope
      cases value <;> simp only [matched, hagree.message_fts]
    simp only [compile_body_fts_field, hmatched]
  | MailboxId => exact (compilesSubquery_membership condition _).alike hagree.membershipRows
  | MailboxRole => exact (compilesSubquery_membership condition _).alike hagree.mailboxRows
  | Keyword => exact (compilesSubquery_membership condition _).alike hagree.keywordRows
  | MailboxName => exact (compilesSubquery_text_membership functions condition _).alike hagree.mailboxRows
  | SourceId | MessageId | ThreadId | ConversationId | FromName | FromEmail | To | Subject | Preview | ReceivedAt
  | Size | IsRead | IsFlagged | HasAttachment => exact compilesAlike_of_eq rfl

theorem Agree.compile_condition (hagree : Agree message archive other) (condition : MailQueryCondition) :
    CompilesAlike message (compile_mail_query_condition functions archive condition)
      (compile_mail_query_condition functions other condition) := by
  intro fragment hcompiled
  obtain ⟨field, hfield, rfl⟩ := fragment_of_condition hcompiled
  obtain ⟨found, hfound, halike⟩ := hagree.compileField condition field hfield
  refine ⟨negatedIf condition.negated found, ?_, halike.negatedIf condition.negated⟩
  rw [compile_mail_query_condition] at hcompiled ⊢
  split_ifs at hcompiled ⊢ with hoperator
  · rw [hfound]
    rfl
  · cases hcompiled

mutual

/-- The induction over rule trees: archives that agree on a message compile a tree alike. -/
theorem Agree.compile_group (hagree : Agree message archive other) (group : MailQueryGroup) :
    CompilesAlike message (compile_mail_query_group functions archive group)
      (compile_mail_query_group functions other group) := by
  match group with
  | .mk operator negated nodes =>
    intro fragment hcompiled
    rw [compile_mail_query_group] at hcompiled
    obtain ⟨parts, hparts, hjoined⟩ := effects.except_bind_eq_ok_iff.mp hcompiled
    obtain ⟨others, hothers, halike⟩ := hagree.compileNodes nodes parts hparts
    cases halike with
    | nil =>
      refine ⟨fragment, ?_, Alike.refl fragment⟩
      rw [compile_mail_query_group, hothers]
      exact hjoined
    | cons hfirst hrest =>
      obtain rfl := Except.ok.inj hjoined
      refine ⟨_, ?_, (hfirst.joined hrest).negatedIf negated⟩
      rw [compile_mail_query_group, hothers]
      rfl

theorem Agree.compileNodes (hagree : Agree message archive other) (nodes : List MailQueryRuleNode)
    (parts : List Fragment) (hparts : compileNodes functions archive nodes = .ok parts) :
    ∃ others, compileNodes functions other nodes = .ok others ∧ List.Forall₂ (Alike message) parts others := by
  match nodes with
  | [] =>
    obtain rfl := Except.ok.inj hparts
    exact ⟨[], rfl, List.Forall₂.nil⟩
  | node :: nodes =>
    rw [smart_mailboxes.compileNodes] at hparts
    obtain ⟨first, hfirst, hrest⟩ := effects.except_bind_eq_ok_iff.mp hparts
    obtain ⟨rest, hnodes, hok⟩ := effects.except_bind_eq_ok_iff.mp hrest
    obtain rfl := Except.ok.inj hok
    obtain ⟨second, hsecond, halike⟩ := hagree.compileNode node first hfirst
    obtain ⟨others, hothers, hall⟩ := hagree.compileNodes nodes rest hnodes
    refine ⟨second :: others, ?_, List.Forall₂.cons halike hall⟩
    rw [smart_mailboxes.compileNodes, hsecond, effects.except_bind_ok, hothers]
    rfl

theorem Agree.compileNode (hagree : Agree message archive other) (node : MailQueryRuleNode) :
    CompilesAlike message (compileNode functions archive node) (compileNode functions other node) := by
  match node with
  | .Group group => exact hagree.compile_group group
  | .Condition condition => exact hagree.compile_condition condition

end

end Local

/-- Whether a rule selects a message: it compiles, runs on the row and answers true. -/
def ruleSelects (functions : Functions) (archive : Archive) (rule : MailQueryRule) (message : QueriedRow) : Bool :=
  match compile_mail_query_rule functions archive rule with
  | .error _ => false
  | .ok fragment => fragment.1.run message.scope fragment.2 = some (some true)

/-- A rule reads of the archive what it says of the message. -/
theorem Agree.ruleSelects_of {functions : Functions} {message : QueriedRow} {archive other : Archive}
    (hagree : Agree message archive other) {rule : MailQueryRule}
    (hselects : ruleSelects functions archive rule message = true) : ruleSelects functions other rule message = true := by
  unfold ruleSelects at hselects ⊢
  cases hcompiled : compile_mail_query_rule functions archive rule with
  | error error => simp [hcompiled] at hselects
  | ok fragment =>
    obtain ⟨found, hfound, halike⟩ := hagree.compile_group rule.root fragment hcompiled
    rw [hcompiled] at hselects
    have hother : compile_mail_query_rule functions other rule = .ok found := hfound
    simpa only [hother, halike.run] using hselects

theorem Agree.symm {message : QueriedRow} {archive other : Archive} (hagree : Agree message archive other) :
    Agree message other archive :=
  ⟨hagree.source_projection.symm, hagree.mailbox.symm, hagree.message_fts.symm, hagree.mailboxIds.symm,
    hagree.keywordsOf.symm⟩

theorem Agree.ruleSelects_eq {functions : Functions} {message : QueriedRow} {archive other : Archive}
    (hagree : Agree message archive other) (rule : MailQueryRule) :
    ruleSelects functions other rule message = ruleSelects functions archive rule message :=
  Bool.eq_iff_iff.mpr ⟨hagree.symm.ruleSelects_of, hagree.ruleSelects_of⟩

end posthaste.store.smart_mailboxes
