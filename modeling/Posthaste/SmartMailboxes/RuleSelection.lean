import Posthaste.SmartMailboxes.RuleFidelity

open posthaste.model

namespace posthaste.store.smart_mailboxes

section Fidelity

variable (functions : Functions) (archive : Archive)

/-- The texts of the message that a condition on the field tests, for the fields whose nulls read as text. -/
def fieldTexts (field : MailQueryField) (message : QueriedRow) : List String :=
  match field with
  | .SourceName => [(archive.source_projection message.account_id).getD message.account_id]
  | .FromName => [message.from_name.getD ""]
  | .FromEmail => [message.from_email.getD ""]
  | .To => message.to_.flatMap recipientTexts
  | .Subject => [message.subject.getD ""]
  | .Preview => [message.preview.getD ""]
  | .MailboxName => (mailboxesOf archive message).map (·.name)
  | _ => []

/-- A condition asks SQL what it means: the null of a conversation or of a date it compares is not asked, and the
    texts are tested as they mean. -/
def Faithful (condition : MailQueryCondition) (message : QueriedRow) : Prop :=
  match condition.field with
  | .ConversationId => message.conversation_id.isSome ∨ condition.value = .Strings []
  | .ReceivedAt => ∀ amount unit, condition.value = .Date (.Relative amount unit) →
      (functions.datetime message.received_at).isSome ∧ (functions.datetime_now (relativeModifier amount unit)).isSome
  | field => TextsFaithful functions condition.operator condition.value (fieldTexts archive field message)

end Fidelity

section Leaves

variable {functions : Functions} {archive : Archive} {scope : Scope} {condition : MailQueryCondition}
  {fragment : Fragment} {message : QueriedRow}

theorem compile_body_fts_field_yields (hcompile : compile_body_fts_field functions condition archive = .ok fragment) :
    fragment.1.Yields scope fragment.2 (some (some (bodyMeans functions archive condition.value scope.message))) := by
  unfold compile_body_fts_field at hcompile
  split at hcompile
  case h_2 => cases hcompile
  case h_1 =>
    obtain ⟨value, hvalue, hok⟩ := effects.except_bind_eq_ok_iff.mp hcompile
    rw [eq_String_of_expect hvalue, bodyMeans]
    cases hexpression : body_fts_match_expression functions value with
    | none =>
      simp only [hexpression] at hok
      obtain rfl := Except.ok.inj hok
      exact sql.Predicate.yields_constant
    | some expression =>
      simp only [hexpression] at hok
      obtain rfl := Except.ok.inj hok
      exact sql.Predicate.yields_lookup

/-- Only a regex can fail to answer. -/
theorem answers_of_ordinary {operator : MailQueryOperator} {truth : sql.Truth} {means : Bool} {faithful : Prop}
    (hordinary : operator ≠ .Regex) (hyields : fragment.1.Yields scope fragment.2 (some truth))
    (hmeans : truth = some means ↔ faithful) : Answers scope operator fragment means faithful :=
  ⟨_, hyields, Option.some_inj.trans hmeans, iff_of_true rfl fun hregex => absurd hregex hordinary⟩

/-- A comparison that never fails, null when one of its sides is. -/
theorem compared_yields {left right : SqlScalar} {first second : Option SqlValue} {own more : List SqlValue}
    {comparison : SqlValue → SqlValue → Bool} (hleft : left.Yields scope own first)
    (hright : right.Yields scope more second) :
    (sql.Predicate.compare (fun left right => some (comparison left right)) left right).Yields scope (own ++ more)
      (some (first.bind fun left => second.map fun right => comparison left right)) := by
  have hcompare : (sql.Predicate.compare (fun left right => some (comparison left right)) left right).Yields scope
      (own ++ more) _ := sql.Predicate.yields_compare hleft hright
  cases first <;> cases second <;> exact hcompare

theorem ordered_yields {left right : SqlScalar} {first second : SqlValue} {own more : List SqlValue}
    {comparison : SqlValue → SqlValue → Bool} (hleft : left.Yields scope own (some first))
    (hright : right.Yields scope more (some second)) :
    (sql.Predicate.compare (fun left right => some (comparison left right)) left right).Yields scope (own ++ more)
      (some (some (comparison first second))) :=
  sql.Predicate.yields_compare hleft hright

theorem compile_date_field_faithful {read : Scope → Timestamp}
    (hcompile : compile_date_field functions condition (textColumn fun scope => some (read scope)) = .ok fragment) :
    Answers scope condition.operator fragment
      (dateMeans functions condition.operator condition.value (read scope))
      (∀ amount unit, condition.value = .Date (.Relative amount unit) →
        (functions.datetime (read scope)).isSome ∧
          (functions.datetime_now (relativeModifier amount unit)).isSome) := by
  have hcolumn : (textColumn fun scope => some (read scope)).Yields scope [] (some (.Text (read scope))) :=
    textColumn_yields
  unfold compile_date_field at hcompile
  split at hcompile
  case h_1 => cases hcompile
  case h_2 comparison hcomparison =>
    have hordered : condition.operator ≠ .Regex := by
      intro hregex
      rw [hregex] at hcomparison
      cases hcomparison
    split at hcompile
    case h_1 instant hvalue =>
      obtain rfl := Except.ok.inj hcompile
      refine answers_of_ordinary hordered (ordered_yields hcolumn sql.Scalar.yields_bound) (iff_of_true ?_ ?_)
      · simp only [dateMeans, hcomparison, hvalue]
      · simp [hvalue]
    case h_2 instant hvalue =>
      obtain rfl := Except.ok.inj hcompile
      refine answers_of_ordinary hordered (ordered_yields hcolumn sql.Scalar.yields_bound) (iff_of_true ?_ ?_)
      · simp only [dateMeans, hcomparison, hvalue]
      · simp [hvalue]
    case h_3 amount unit hvalue =>
      obtain rfl := Except.ok.inj hcompile
      have hbound : (sql.Scalar.bound : SqlScalar).Yields scope [SqlValue.Text (relativeModifier amount unit)]
          (some (.Text (relativeModifier amount unit))) := sql.Scalar.yields_bound
      have hasked : ∀ (amount' : Nat) (unit' : DateUnit),
          MailQueryValue.Date (.Relative amount unit) = .Date (.Relative amount' unit') ↔
            amount = amount' ∧ unit = unit' := by simp
      refine answers_of_ordinary hordered (compared_yields hcolumn.call hbound.call) ?_
      simp only [dateMeans, hcomparison, hvalue, datetimeOf, hasked]
      cases functions.datetime (read scope) with
      | none => simp
      | some received =>
        cases hnow : functions.datetime_now (relativeModifier amount unit) with
        | none => simp [hnow]
        | some bound => simp [hnow]
    case h_4 => cases hcompile

theorem compile_numeric_field_yields {read : Scope → Int}
    (hcompile : compile_numeric_field condition (.column fun scope => some (.Integer (read scope))) = .ok fragment) :
    fragment.1.Yields scope fragment.2 (some (some (sizeMeans condition.operator condition.value (read scope)))) := by
  unfold compile_numeric_field at hcompile
  split at hcompile
  case h_1 => cases hcompile
  case h_2 comparison hcomparison =>
    obtain ⟨raw, hraw, hparsed⟩ := effects.except_bind_eq_ok_iff.mp hcompile
    rw [eq_String_of_expect hraw]
    simp only [sizeMeans, hcomparison]
    cases hnumber : parse_i64 (str.trim raw) with
    | none =>
      simp only [hnumber] at hparsed
      cases hparsed
    | some number =>
      simp only [hnumber] at hparsed
      obtain rfl := Except.ok.inj hparsed
      have hcolumn : (sql.Scalar.column fun scope => some (SqlValue.Integer (read scope))).Yields scope []
          (some (.Integer (read scope))) := sql.Scalar.yields_column
      exact ordered_yields hcolumn sql.Scalar.yields_bound

theorem eq_Bool_of_expect {value : MailQueryValue} {expected : Bool} (hvalue : expect_bool_value value = .ok expected) :
    value = .Bool expected := by
  cases value <;> simp_all [expect_bool_value]

theorem compile_bool_field_yields {read : Scope → Bool} (hcompile : compile_bool_field condition read = .ok fragment) :
    fragment.1.Yields scope fragment.2 (some (some (condition.value = .Bool (read scope)))) := by
  unfold compile_bool_field at hcompile
  split at hcompile
  · cases hcompile
  · obtain ⟨expected, hexpected, hok⟩ := effects.except_bind_eq_ok_iff.mp hcompile
    obtain rfl := Except.ok.inj hok
    have hyields : (sql.Predicate.compare equalTest (.column fun scope => some (SqlValue.Integer (read scope).toNat))
        (.column fun _ => some (SqlValue.Integer expected.toNat))).Yields scope ([] ++ []) _ :=
      sql.Predicate.yields_compare sql.Scalar.yields_column sql.Scalar.yields_column
    have hsame : decide (SqlValue.Integer (read scope).toNat = SqlValue.Integer expected.toNat) =
        decide (MailQueryValue.Bool expected = .Bool (read scope)) := by
      cases read scope <;> cases expected <;> rfl
    rw [eq_Bool_of_expect hexpected, ← hsame]
    exact hyields

theorem membershipRows_any {test : MailboxId → Bool} :
    ((membershipRows archive message.scope).any fun inner => inner.mailbox_id.any test) =
      (mailboxIds archive message).any test := by
  rw [membershipRows, mailboxIds, List.any_map, List.any_map]
  rfl

theorem keywordRows_any {test : String → Bool} :
    ((keywordRows archive message.scope).any fun inner => inner.keyword.any test) =
      (keywordsOf archive message).any test := by
  rw [keywordRows, keywordsOf, List.any_map, List.any_map]
  rfl

/-- The joined rows carry the mailboxes of the message, in order. -/
theorem mailboxRows_mailbox :
    (mailboxRows archive message.scope).map (·.mailbox) = (mailboxesOf archive message).map some := by
  rw [mailboxRows, mailboxesOf, membershipRows, mailboxIds, List.map_flatMap, List.map_flatMap, List.flatMap_map,
    List.flatMap_map]
  congr 1
  funext mm
  rw [List.map_map]
  simp only [Option.some.injEq]
  rfl

theorem mailboxRows_any {test : MailboxRow → Bool} :
    ((mailboxRows archive message.scope).any fun inner => inner.mailbox.any test) =
      (mailboxesOf archive message).any test := by
  have hmap : (mailboxRows archive message.scope).any (fun inner => inner.mailbox.any test) =
      ((mailboxRows archive message.scope).map (·.mailbox)).any (Option.any test) := by
    rw [List.any_map]
    rfl
  rw [hmap, mailboxRows_mailbox, List.any_map]
  rfl

theorem mailboxRows_names :
    ((mailboxRows archive message.scope).flatMap fun inner => (inner.mailbox.map (·.name)).toList) =
      (mailboxesOf archive message).map (·.name) := by
  have hmap : (mailboxRows archive message.scope).flatMap (fun inner => (inner.mailbox.map (·.name)).toList) =
      ((mailboxRows archive message.scope).map (·.mailbox)).flatMap fun mailbox => (mailbox.map (·.name)).toList := by
    rw [List.flatMap_map]
  rw [hmap, mailboxRows_mailbox, List.flatMap_map]
  induction mailboxesOf archive message with
  | nil => rfl
  | cons b rest ih => simpa only [List.flatMap_cons, List.map_cons, Option.map_some, Option.toList_some,
      List.singleton_append, List.cons.injEq, true_and] using ih

theorem textsFaithful_nil {operator : MailQueryOperator} {value : MailQueryValue} :
    TextsFaithful functions operator value [] := by
  unfold TextsFaithful
  split
  · exact Or.inl rfl
  · simp
  · simp
  · simp
  · trivial

theorem ne_regex_of_compile_simple_field {column : SqlScalar}
    (hcompile : compile_simple_field condition column = .ok fragment) : condition.operator ≠ .Regex := by
  intro hregex
  rw [compile_simple_field, hregex] at hcompile
  cases hcompile

theorem compile_present_field_yields {read : Scope → String}
    (hcompile : compile_simple_field condition (textColumn fun scope => some (read scope)) = .ok fragment) :
    fragment.1.Yields scope fragment.2
      (some (some (textMeans functions condition.operator condition.value (read scope)))) := by
  have hcolumn : (textColumn fun scope => some (read scope)).Yields scope [] ((some (read scope)).map .Text) :=
    textColumn_yields
  obtain ⟨truth, hyields, hmeans⟩ := compile_simple_field_yields hcompile hcolumn
  rw [hmeans.mpr (Or.inl rfl)] at hyields
  exact hyields

theorem compile_read_field_faithful {read : Scope → Option String}
    (hcompile : compile_text_field functions condition (textColumn read) = .ok fragment) :
    Answers scope condition.operator fragment
      (textMeans functions condition.operator condition.value ((read scope).getD ""))
      (TextsFaithful functions condition.operator condition.value [(read scope).getD ""]) :=
  compile_text_field_faithful hcompile textColumn_yields

/-- One compiler, one meaning: a fragment answers what its condition means exactly when the condition is faithful. -/
theorem compileField_faithful (hcompile : compileField functions archive condition = .ok fragment) :
    Answers message.scope condition.operator fragment (fieldMeans functions archive condition message)
      (Faithful functions archive condition message) := by
  cases hfield : condition.field
  all_goals simp only [compileField, hfield] at hcompile
  all_goals simp only [fieldMeans, Faithful, hfield, fieldTexts]
  case SourceId | MessageId | ThreadId =>
    exact answers_of_faithful (compile_present_field_yields hcompile) textsFaithful_nil
  case ConversationId =>
    obtain ⟨truth, hyields, hmeans⟩ := compile_simple_field_yields hcompile textColumn_yields
    exact answers_of_ordinary (ne_regex_of_compile_simple_field hcompile) hyields hmeans
  case SourceName | FromName | FromEmail | Subject | Preview => exact compile_read_field_faithful hcompile
  case To => exact compile_recipient_json_field_faithful hcompile
  case Body => exact answers_of_faithful (compile_body_fts_field_yields hcompile) textsFaithful_nil
  case ReceivedAt => exact compile_date_field_faithful hcompile
  case Size =>
    have hyields := @compile_numeric_field_yields message.scope condition fragment _ hcompile
    exact answers_of_faithful hyields textsFaithful_nil
  case IsRead | IsFlagged | HasAttachment =>
    exact answers_of_faithful (compile_bool_field_yields hcompile) textsFaithful_nil
  case MailboxId =>
    rw [← membershipRows_any]
    exact answers_of_faithful (compile_exists_membership_yields hcompile) textsFaithful_nil
  case Keyword =>
    rw [← keywordRows_any]
    exact answers_of_faithful (compile_exists_membership_yields hcompile) textsFaithful_nil
  case MailboxRole =>
    rw [← mailboxRows_any]
    have hyields : fragment.1.Yields message.scope fragment.2 (some (some ((mailboxRows archive message.scope).any
        fun inner => (inner.mailbox.bind (·.role)).any (textMeans functions condition.operator condition.value)))) :=
      compile_exists_membership_yields hcompile
    have hrole : ∀ (mailbox : Option MailboxRow) (test : String → Bool),
        (mailbox.bind (·.role)).any test = mailbox.any fun b => b.role.any test := by
      intro mailbox test
      cases mailbox <;> rfl
    simp only [hrole] at hyields
    exact answers_of_faithful hyields textsFaithful_nil
  case MailboxName =>
    have hnames : ∀ test : String → Bool,
        ((mailboxesOf archive message).any fun b => test b.name) = ((mailboxesOf archive message).map (·.name)).any test := by
      intro test
      rw [List.any_map]
      rfl
    rw [hnames, ← mailboxRows_names]
    exact compile_exists_text_membership_faithful hcompile

end Leaves

end posthaste.store.smart_mailboxes
