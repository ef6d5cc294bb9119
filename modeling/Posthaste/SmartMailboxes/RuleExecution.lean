import Posthaste.SmartMailboxes.RuleTrees

open posthaste.model

namespace posthaste.store.smart_mailboxes

/-- The value has the shape the field's compiler asks of the operator. -/
def ShapeFits (condition : MailQueryCondition) : Prop :=
  match (field_spec condition.field).value_type, condition.value with
  | .Text, .String _ => condition.operator ≠ .In
  | .Text, .Strings _ => condition.operator = .In
  | .Bool, .Bool _ | .Date, .String _ | .Date, .Date _ => True
  | .Number, .String raw => (parse_i64 (str.trim raw)).isSome
  | _, _ => False

def PatternCompiles (functions : Functions) (condition : MailQueryCondition) : Prop :=
  condition.operator = .Regex → ∀ pattern, condition.value = .String pattern → (functions.regex pattern).isSome

/-- A condition that compiles and never fails a statement. -/
structure Executable (functions : Functions) (condition : MailQueryCondition) : Prop where
  operator : condition.operator ∈ (field_spec condition.field).operators
  shape : ShapeFits condition
  pattern : PatternCompiles functions condition

section Compile

variable {functions : Functions} {archive : Archive} {condition : MailQueryCondition} {column : SqlScalar}
  {rows : Scope → List Scope}

/-- The shape of a text field's value. -/
def TextFits (operator : MailQueryOperator) (value : MailQueryValue) : Prop :=
  match value with
  | .String _ => operator ≠ .In
  | .Strings _ => operator = .In
  | _ => False

theorem string_then_ok_iff {value : MailQueryValue} {operator : MailQueryOperator} {compile : String → Fragment}
    (hoperator : operator ≠ .In) :
    (∃ fragment, (expect_string_value value >>= fun text => (.ok (compile text) : Except StoreError Fragment)) =
      .ok fragment) ↔ TextFits operator value := by
  cases value with
  | String text => exact iff_of_true ⟨_, rfl⟩ hoperator
  | Strings values => exact iff_of_false (by rintro ⟨_, ⟨⟩⟩) hoperator
  | Bool value => exact iff_of_false (by rintro ⟨_, ⟨⟩⟩) id
  | Date value => exact iff_of_false (by rintro ⟨_, ⟨⟩⟩) id

theorem strings_then_ok_iff {value : MailQueryValue} {compile : List String → Fragment} :
    (∃ fragment, (expect_strings_value value >>= fun texts => (.ok (compile texts) : Except StoreError Fragment)) =
      .ok fragment) ↔ TextFits .In value := by
  cases value with
  | String text => exact iff_of_false (by rintro ⟨_, ⟨⟩⟩) (not_not_intro rfl)
  | Strings values => exact iff_of_true ⟨_, rfl⟩ rfl
  | Bool value => exact iff_of_false (by rintro ⟨_, ⟨⟩⟩) id
  | Date value => exact iff_of_false (by rintro ⟨_, ⟨⟩⟩) id

theorem mem_EQ_IN {operator : MailQueryOperator} : operator ∈ EQ_IN ↔ operator = .Equals ∨ operator = .In := by
  simp [EQ_IN]

theorem mem_EQ_CONTAINS_IN {operator : MailQueryOperator} :
    operator ∈ EQ_CONTAINS_IN ↔ operator = .Equals ∨ operator = .Contains ∨ operator = .In ∨
      operator = .BeginsWith ∨ operator = .EndsWith ∨ operator = .Regex := by
  simp [EQ_CONTAINS_IN]

theorem compile_simple_field_ok_iff (hoperator : condition.operator ∈ EQ_IN) :
    (∃ fragment, compile_simple_field condition column = .ok fragment) ↔
      TextFits condition.operator condition.value := by
  rw [compile_simple_field]
  rcases mem_EQ_IN.mp hoperator with hcase | hcase
  · rw [hcase]
    exact string_then_ok_iff (by decide)
  · rw [hcase]
    exact strings_then_ok_iff

theorem compile_exists_membership_ok_iff (hoperator : condition.operator ∈ EQ_IN) :
    (∃ fragment, compile_exists_membership condition rows column = .ok fragment) ↔
      TextFits condition.operator condition.value := by
  rw [compile_exists_membership]
  rcases mem_EQ_IN.mp hoperator with hcase | hcase
  · rw [hcase]
    exact string_then_ok_iff (by decide)
  · rw [hcase]
    exact strings_then_ok_iff

theorem compile_text_field_ok_iff (hoperator : condition.operator ∈ EQ_CONTAINS_IN) :
    (∃ fragment, compile_text_field functions condition column = .ok fragment) ↔
      TextFits condition.operator condition.value := by
  rw [compile_text_field]
  rcases mem_EQ_CONTAINS_IN.mp hoperator with hcase | hcase | hcase | hcase | hcase | hcase
  case inr.inr.inl =>
    rw [hcase]
    exact strings_then_ok_iff
  all_goals
    rw [hcase]
    exact string_then_ok_iff (by decide)

theorem compile_exists_text_membership_ok_iff (hoperator : condition.operator ∈ EQ_CONTAINS_IN) :
    (∃ fragment, compile_exists_text_membership functions condition rows column = .ok fragment) ↔
      TextFits condition.operator condition.value := by
  rw [compile_exists_text_membership]
  rcases mem_EQ_CONTAINS_IN.mp hoperator with hcase | hcase | hcase | hcase | hcase | hcase
  case inr.inr.inl =>
    rw [hcase]
    exact strings_then_ok_iff
  all_goals
    rw [hcase]
    exact string_then_ok_iff (by decide)

theorem compile_recipient_json_field_ok_iff (hoperator : condition.operator ∈ EQ_CONTAINS_IN) :
    (∃ fragment, compile_recipient_json_field functions condition = .ok fragment) ↔
      TextFits condition.operator condition.value := by
  rw [compile_recipient_json_field]
  rcases mem_EQ_CONTAINS_IN.mp hoperator with hcase | hcase | hcase | hcase | hcase | hcase
  case inr.inr.inl =>
    rw [hcase]
    cases hvalue : condition.value with
    | Strings values =>
      refine iff_of_true ?_ rfl
      cases values with
      | nil => exact ⟨_, rfl⟩
      | cons value values => exact ⟨_, rfl⟩
    | String text => exact iff_of_false (by rintro ⟨_, ⟨⟩⟩) (not_not_intro rfl)
    | Bool value => exact iff_of_false (by rintro ⟨_, ⟨⟩⟩) id
    | Date value => exact iff_of_false (by rintro ⟨_, ⟨⟩⟩) id
  all_goals
    rw [hcase]
    exact string_then_ok_iff (by decide)

theorem compile_body_fts_field_ok_iff (hoperator : condition.operator ∈ CONTAINS_ONLY) :
    (∃ fragment, compile_body_fts_field functions condition archive = .ok fragment) ↔
      TextFits condition.operator condition.value := by
  rw [List.mem_singleton.mp hoperator, compile_body_fts_field, List.mem_singleton.mp hoperator]
  cases hvalue : condition.value with
  | String text =>
    refine iff_of_true ?_ (by simp [TextFits])
    cases hexpression : body_fts_match_expression functions text with
    | none => exact ⟨_, by simp only [expect_string_value, hexpression, effects.except_bind_ok]; rfl⟩
    | some expression => exact ⟨_, by simp only [expect_string_value, hexpression, effects.except_bind_ok]; rfl⟩
  | Strings values => exact iff_of_false (by rintro ⟨_, ⟨⟩⟩) (by rintro ⟨⟩)
  | Bool value => exact iff_of_false (by rintro ⟨_, ⟨⟩⟩) id
  | Date value => exact iff_of_false (by rintro ⟨_, ⟨⟩⟩) id

theorem comparator_isSome {operator : MailQueryOperator} (hoperator : operator ∈ ORDERED) :
    ∃ comparison, comparator operator = some comparison := by
  have hordered : operator = .Lt ∨ operator = .Gt ∨ operator = .Le ∨ operator = .Ge := by simpa [ORDERED] using hoperator
  rcases hordered with rfl | rfl | rfl | rfl <;> exact ⟨_, rfl⟩

theorem compile_date_field_ok_iff (hoperator : condition.operator ∈ ORDERED) :
    (∃ fragment, compile_date_field functions condition column = .ok fragment) ↔
      (∃ instant, condition.value = .String instant) ∨ ∃ date, condition.value = .Date date := by
  obtain ⟨comparison, hcomparison⟩ := comparator_isSome hoperator
  simp only [compile_date_field, hcomparison]
  cases hvalue : condition.value with
  | String instant => exact iff_of_true ⟨_, rfl⟩ (Or.inl ⟨_, rfl⟩)
  | Date date => cases date <;> exact iff_of_true ⟨_, rfl⟩ (Or.inr ⟨_, rfl⟩)
  | Strings values | Bool value => simp

theorem compile_numeric_field_ok_iff (hoperator : condition.operator ∈ ORDERED) :
    (∃ fragment, compile_numeric_field condition column = .ok fragment) ↔
      ∃ raw, condition.value = .String raw ∧ (parse_i64 (str.trim raw)).isSome := by
  obtain ⟨comparison, hcomparison⟩ := comparator_isSome hoperator
  simp only [compile_numeric_field, hcomparison]
  cases hvalue : condition.value with
  | String raw =>
    simp only [expect_string_value, effects.except_bind_ok]
    cases hnumber : parse_i64 (str.trim raw) with
    | none => simp [hnumber]
    | some number => exact iff_of_true ⟨_, rfl⟩ ⟨raw, rfl, by rw [hnumber]; rfl⟩
  | Strings values | Bool value | Date date => exact iff_of_false (by rintro ⟨_, ⟨⟩⟩) (by simp)

theorem compile_bool_field_ok_iff {read : Scope → Bool} (hoperator : condition.operator ∈ EQ_ONLY) :
    (∃ fragment, compile_bool_field condition read = .ok fragment) ↔ ∃ expected, condition.value = .Bool expected := by
  rw [compile_bool_field, if_neg (not_not_intro (List.mem_singleton.mp hoperator))]
  cases hvalue : condition.value with
  | Bool expected => exact iff_of_true ⟨_, rfl⟩ ⟨_, rfl⟩
  | String text | Strings values | Date date => exact iff_of_false (by rintro ⟨_, ⟨⟩⟩) (by simp)

theorem shapeFits_text (htext : (field_spec condition.field).value_type = .Text) :
    ShapeFits condition ↔ TextFits condition.operator condition.value := by
  rw [ShapeFits, htext]
  cases condition.value <;> exact Iff.rfl

/-- The field's compiler takes the shapes that fit. -/
theorem compileField_ok_iff (hoperator : condition.operator ∈ (field_spec condition.field).operators) :
    (∃ fragment, compileField functions archive condition = .ok fragment) ↔ ShapeFits condition := by
  cases hfield : condition.field
  all_goals rw [hfield] at hoperator
  all_goals simp only [compileField, hfield]
  case SourceId | MessageId | ThreadId | ConversationId =>
    rw [shapeFits_text (by rw [hfield]; rfl)]
    exact compile_simple_field_ok_iff hoperator
  case MailboxId | MailboxRole | Keyword =>
    rw [shapeFits_text (by rw [hfield]; rfl)]
    exact compile_exists_membership_ok_iff hoperator
  case SourceName | FromName | FromEmail | Subject | Preview =>
    rw [shapeFits_text (by rw [hfield]; rfl)]
    exact compile_text_field_ok_iff hoperator
  case MailboxName =>
    rw [shapeFits_text (by rw [hfield]; rfl)]
    exact compile_exists_text_membership_ok_iff hoperator
  case To =>
    rw [shapeFits_text (by rw [hfield]; rfl)]
    exact compile_recipient_json_field_ok_iff hoperator
  case Body =>
    rw [shapeFits_text (by rw [hfield]; rfl)]
    exact compile_body_fts_field_ok_iff hoperator
  case IsRead | IsFlagged | HasAttachment =>
    rw [compile_bool_field_ok_iff hoperator]
    simp only [ShapeFits, hfield, field_spec]
    cases condition.value <;> simp
  case ReceivedAt =>
    rw [compile_date_field_ok_iff hoperator]
    simp only [ShapeFits, hfield, field_spec]
    cases condition.value <;> simp
  case Size =>
    rw [compile_numeric_field_ok_iff hoperator]
    simp only [ShapeFits, hfield, field_spec]
    cases condition.value <;> simp

/-- A condition compiles when the schema has its operator and its value fits. -/
theorem compile_mail_query_condition_ok_iff :
    (∃ fragment, compile_mail_query_condition functions archive condition = .ok fragment) ↔
      condition.operator ∈ (field_spec condition.field).operators ∧ ShapeFits condition := by
  rw [compile_mail_query_condition]
  by_cases hoperator : condition.operator ∈ (field_spec condition.field).operators
  · have hfield : (∃ fragment, compileField functions archive condition = .ok fragment) ↔ ShapeFits condition :=
      compileField_ok_iff hoperator
    rw [if_neg (not_not_intro hoperator), and_iff_right hoperator, ← hfield]
    constructor
    · rintro ⟨fragment, hfragment⟩
      obtain ⟨field, hfield, -⟩ := effects.except_bind_eq_ok_iff.mp hfragment
      exact ⟨field, hfield⟩
    · rintro ⟨field, hfield⟩
      exact ⟨_, effects.except_bind_eq_ok_iff.mpr ⟨field, hfield, rfl⟩⟩
  · rw [if_pos hoperator]
    exact iff_of_false (by rintro ⟨_, ⟨⟩⟩) fun hboth => hoperator hboth.1

end Compile

/-- The rule compiles, and its statement runs on every store. -/
def Executes (functions : Functions) (rule : MailQueryRule) : Prop :=
  ∀ (archive : Archive) (messages : List QueriedRow), ∃ fragment selected,
    compile_mail_query_rule functions archive rule = .ok fragment ∧ select fragment messages = some selected

/-- A fragment that answers something of the row. -/
def Runs (message : QueriedRow) (fragment : Fragment) : Prop :=
  ∃ truth, fragment.1.Yields message.scope fragment.2 (some truth)

section Runs

variable {functions : Functions} {archive : Archive} {message : QueriedRow} {fragment : Fragment}
  {condition : MailQueryCondition}

theorem Runs.negatedIf {negated : Bool} (hruns : Runs message fragment) : Runs message (negatedIf negated fragment) := by
  obtain ⟨truth, hyields⟩ := hruns
  cases negated with
  | false => exact ⟨truth, hyields⟩
  | true => exact ⟨truth.not, hyields.not⟩

theorem joined_runs {operator : MailQueryGroupOperator} {parts : List Fragment} (hfirst : Runs message fragment)
    (hparts : ∀ part ∈ parts, Runs message part) : Runs message (joined operator fragment parts) := by
  induction parts generalizing fragment with
  | nil => exact hfirst
  | cons part parts ih =>
    refine ih ?_ fun other hother => hparts other (List.mem_cons_of_mem _ hother)
    obtain ⟨first, hfirst⟩ := hfirst
    obtain ⟨second, hsecond⟩ := hparts part List.mem_cons_self
    cases operator with
    | All => exact ⟨first.and second, hfirst.and hsecond⟩
    | Any => exact ⟨first.or second, hfirst.or hsecond⟩

/-- A pattern that compiles is faithful on any texts. -/
theorem faithful_of_regex (hexecutable : Executable functions condition) (hregex : condition.operator = .Regex) :
    Faithful functions archive condition message := by
  obtain ⟨hoperator, hshape, hpattern⟩ := hexecutable
  rw [Faithful]
  cases hfield : condition.field
  all_goals
    simp only
    rw [hregex, hfield] at hoperator
  case SourceName | FromName | FromEmail | To | Subject | Preview | MailboxName =>
    rw [shapeFits_text (by rw [hfield]; rfl), hregex] at hshape
    cases hvalue : condition.value with
    | String pattern =>
      rw [hregex]
      exact Or.inr (hpattern hregex pattern hvalue)
    | Strings values | Bool value | Date value =>
      rw [hvalue] at hshape
      cases hshape
  all_goals exact absurd hoperator (by decide)

theorem condition_runs (hexecutable : Executable functions condition) :
    ∃ fragment, compile_mail_query_condition functions archive condition = .ok fragment ∧
      ∀ message, Runs message fragment := by
  obtain ⟨fragment, hcompile⟩ : ∃ fragment, compile_mail_query_condition functions archive condition = .ok fragment :=
    compile_mail_query_condition_ok_iff.mpr ⟨hexecutable.operator, hexecutable.shape⟩
  refine ⟨fragment, hcompile, fun message => ?_⟩
  obtain ⟨field, hfield, rfl⟩ := fragment_of_condition hcompile
  have hanswers : Answers message.scope condition.operator field _ _ := compileField_faithful hfield
  obtain ⟨answer, hyields, -, hsome⟩ := hanswers
  obtain ⟨truth, rfl⟩ := Option.isSome_iff_exists.mp (hsome.mpr (faithful_of_regex hexecutable))
  exact Runs.negatedIf ⟨truth, hyields⟩

mutual

/-- The induction over rule trees: executable conditions make an executable tree. -/
theorem group_runs {group : MailQueryGroup} (hexecutable : ∀ condition ∈ group.conditions, Executable functions condition) :
    ∃ fragment, compile_mail_query_group functions archive group = .ok fragment ∧ ∀ message, Runs message fragment := by
  match group with
  | .mk operator negated nodes =>
    obtain ⟨parts, hparts, hruns⟩ : ∃ parts, compileNodes functions archive nodes = .ok parts ∧
      ∀ part ∈ parts, ∀ message, Runs message part := nodes_run hexecutable
    rw [compile_mail_query_group, hparts, effects.except_bind_ok]
    cases parts with
    | nil =>
      refine ⟨_, rfl, fun message => ?_⟩
      have hconstant : Runs message (.constant true, []) := ⟨some true, sql.Predicate.yields_constant⟩
      exact hconstant.negatedIf
    | cons first rest =>
      refine ⟨_, rfl, fun message => (joined_runs ?_ ?_).negatedIf⟩
      · exact hruns first List.mem_cons_self message
      · exact fun part hpart => hruns part (List.mem_cons_of_mem _ hpart) message

theorem nodes_run {nodes : List MailQueryRuleNode}
    (hexecutable : ∀ condition ∈ nodesConditions nodes, Executable functions condition) :
    ∃ fragments, compileNodes functions archive nodes = .ok fragments ∧
      ∀ fragment ∈ fragments, ∀ message, Runs message fragment := by
  match nodes with
  | [] => exact ⟨[], rfl, fun _ hmem => absurd hmem List.not_mem_nil⟩
  | node :: nodes =>
    rw [nodesConditions] at hexecutable
    obtain ⟨fragment, hfragment, hruns⟩ : ∃ fragment, compileNode functions archive node = .ok fragment ∧
        ∀ message, Runs message fragment :=
      node_runs fun condition hcondition => hexecutable condition (List.mem_append_left _ hcondition)
    obtain ⟨fragments, hfragments, hrest⟩ : ∃ fragments, compileNodes functions archive nodes = .ok fragments ∧
        ∀ fragment ∈ fragments, ∀ message, Runs message fragment :=
      nodes_run fun condition hcondition => hexecutable condition (List.mem_append_right _ hcondition)
    refine ⟨fragment :: fragments, ?_, ?_⟩
    · rw [compileNodes, hfragment, effects.except_bind_ok, hfragments]
      rfl
    · intro other hother
      rcases List.mem_cons.mp hother with rfl | hother
      · exact hruns
      · exact hrest other hother

theorem node_runs {node : MailQueryRuleNode}
    (hexecutable : ∀ condition ∈ node.conditions, Executable functions condition) :
    ∃ fragment, compileNode functions archive node = .ok fragment ∧ ∀ message, Runs message fragment := by
  match node with
  | .Group group => exact group_runs hexecutable
  | .Condition condition => exact condition_runs (hexecutable condition (List.mem_singleton.mpr rfl))

end

theorem select_of_runs {messages : List QueriedRow} (hruns : ∀ message, Runs message fragment) :
    ∃ selected, select fragment messages = some selected := by
  induction messages with
  | nil => exact ⟨[], rfl⟩
  | cons message messages ih =>
    obtain ⟨rest, hrest⟩ := ih
    obtain ⟨truth, hyields⟩ := hruns message
    exact ⟨_, select_cons.mpr ⟨truth, rest, hyields.run, hrest, rfl⟩⟩

end Runs

/-- A store with a text in every field. -/
def probeArchive : Archive where
  source_projection := fun _ => none
  message_mailbox_effective := [("a", "m1", "b1")]
  mailbox := [⟨"a", "b1", "Inbox", none⟩]
  message_keyword_effective := []
  message_fts := fun _ => []

def probe : QueriedRow where
  toEffectiveRow := { datedRow "a" "m1" with to_ := [⟨none, "a@b.c"⟩] }
  size := 0

section Sets

variable {functions : Functions} {condition : MailQueryCondition}

theorem fieldTexts_probe {field : MailQueryField} (hregex : .Regex ∈ (field_spec field).operators) :
    fieldTexts probeArchive field probe ≠ [] := by
  cases field
  case SourceName | FromName | FromEmail | Subject | Preview => exact List.cons_ne_nil _ _
  case To | MailboxName => decide
  all_goals exact absurd hregex (by decide)

theorem condition_of_single {archive : Archive} {negated : Bool} {fragment : Fragment}
    (hcompile : compile_mail_query_rule functions archive (single negated condition) = .ok fragment) :
    ∃ own, compile_mail_query_condition functions archive condition = .ok own ∧ fragment = negatedIf negated own := by
  cases hown : compile_mail_query_condition functions archive condition with
  | error error =>
    simp only [compile_mail_query_rule, single, compile_mail_query_group, compileNodes, compileNode, hown] at hcompile
    cases hcompile
  | ok own =>
    rw [single_compile hown] at hcompile
    exact ⟨own, rfl, (Except.ok.inj hcompile).symm⟩

theorem isSome_of_negatedAnswer {negated : Bool} {answer : Option sql.Truth}
    (hsome : (negatedAnswer negated answer).isSome) : answer.isSome := by
  cases answer with
  | none => cases negated <;> cases hsome
  | some truth => rfl

/-- A pattern that does not compile fails the statement on the store above. -/
theorem pattern_of_executes (hoperator : condition.operator ∈ (field_spec condition.field).operators)
    (hexecutes : Executes functions (single false condition)) : PatternCompiles functions condition := by
  intro hregex pattern hvalue
  obtain ⟨fragment, selected, hcompile, hselect⟩ := hexecutes probeArchive [probe]
  obtain ⟨own, hown, rfl⟩ := condition_of_single hcompile
  obtain ⟨field, hfield, rfl⟩ := fragment_of_condition hown
  have hanswers : Answers probe.scope condition.operator field _ _ := compileField_faithful hfield
  obtain ⟨answer, hyields, -, hsome⟩ := hanswers
  obtain ⟨truth, rest, hrun, -, -⟩ := select_cons.mp hselect
  rw [(yields_negatedIf (yields_negatedIf hyields)).run] at hrun
  have hanswer : answer.isSome :=
    isSome_of_negatedAnswer (isSome_of_negatedAnswer (Option.isSome_iff_exists.mpr ⟨truth, hrun⟩))
  have hfaithful := hsome.mp hanswer hregex
  rw [hregex] at hoperator
  have htexts := fieldTexts_probe hoperator
  rw [Faithful] at hfaithful
  cases hcase : condition.field
  all_goals rw [hcase] at hoperator
  case SourceName | FromName | FromEmail | To | Subject | Preview | MailboxName =>
    rw [hcase] at htexts
    simp only [hcase, hregex, hvalue] at hfaithful
    exact hfaithful.resolve_left htexts
  all_goals exact absurd hoperator (by decide)

/-- A set of conditions executes, in every rule tree over them, exactly when each of them does. -/
theorem executes_iff {conditions : Set MailQueryCondition} :
    (∀ rule : MailQueryRule, (∀ condition ∈ rule.conditions, condition ∈ conditions) → Executes functions rule) ↔
      ∀ condition ∈ conditions, Executable functions condition := by
  constructor
  · intro hexecutes condition hmem
    have hsingle : Executes functions (single false condition) := by
      refine hexecutes _ fun other hother => ?_
      rw [single_conditions, List.mem_singleton] at hother
      rwa [hother]
    obtain ⟨fragment, selected, hcompile, -⟩ := hsingle probeArchive []
    obtain ⟨own, hown, -⟩ := condition_of_single hcompile
    obtain ⟨hoperator, hshape⟩ := compile_mail_query_condition_ok_iff.mp ⟨own, hown⟩
    exact ⟨hoperator, hshape, pattern_of_executes hoperator hsingle⟩
  · intro hexecutable rule hrule archive messages
    obtain ⟨fragment, hcompile, hruns⟩ : ∃ fragment, compile_mail_query_group functions archive rule.root = .ok fragment ∧
        ∀ message, Runs message fragment := group_runs fun condition hcondition =>
      hexecutable condition (hrule condition hcondition)
    obtain ⟨selected, hselect⟩ := select_of_runs hruns
    exact ⟨fragment, selected, hcompile, hselect⟩

end Sets

end posthaste.store.smart_mailboxes
