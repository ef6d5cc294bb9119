import Posthaste.SmartMailboxes.Conversations
import Posthaste.SmartMailboxes.RuleSelection

open posthaste.model

namespace posthaste.store.smart_mailboxes

/-- `SELECT … FROM message_effective m WHERE fragment`: a row on which the predicate fails fails the statement. -/
def select (fragment : Fragment) : List QueriedRow → Option (List QueriedRow)
  | [] => some []
  | message :: messages => do
    let truth ← fragment.1.run message.scope fragment.2
    let selected ← select fragment messages
    return if truth = some true then message :: selected else selected

section Select

variable {fragment : Fragment} {messages selected : List QueriedRow} {means : QueriedRow → Bool}

theorem select_cons {message : QueriedRow} :
    select fragment (message :: messages) = some selected ↔
      ∃ truth rest, fragment.1.run message.scope fragment.2 = some truth ∧ select fragment messages = some rest ∧
        selected = if truth = some true then message :: rest else rest := by
  rw [select]
  cases fragment.1.run message.scope fragment.2 with
  | none => simp
  | some truth =>
    cases select fragment messages with
    | none => simp
    | some rest => simp [eq_comm]

theorem run_of_mem_select {message : QueriedRow} (hselect : select fragment messages = some selected)
    (hmem : message ∈ selected) : fragment.1.run message.scope fragment.2 = some (some true) := by
  induction messages generalizing selected with
  | nil =>
    obtain rfl := Option.some.inj hselect
    cases hmem
  | cons first messages ih =>
    obtain ⟨truth, rest, hrun, hrest, rfl⟩ := select_cons.mp hselect
    split_ifs at hmem with htruth
    · rcases List.mem_cons.mp hmem with rfl | hmem
      · rw [hrun, htruth]
      · exact ih hrest hmem
    · exact ih hrest hmem

/-- The statement selects a meaning exactly when each row can be asked and answers it. -/
theorem select_eq_filter_iff :
    select fragment messages = some (messages.filter means) ↔
      ∀ message ∈ messages, ∃ truth, fragment.1.run message.scope fragment.2 = some truth ∧
        (truth = some true ↔ means message = true) := by
  induction messages with
  | nil => simp [select]
  | cons message messages ih =>
    rw [select_cons, List.forall_mem_cons, ← ih]
    constructor
    · rintro ⟨truth, rest, hrun, hrest, heq⟩
      by_cases htruth : truth = some true
      · by_cases hmeans : means message = true
        · rw [if_pos htruth, List.filter_cons_of_pos hmeans] at heq
          obtain ⟨-, rfl⟩ := List.cons.inj heq
          exact ⟨⟨truth, hrun, iff_of_true htruth hmeans⟩, hrest⟩
        · rw [if_pos htruth, List.filter_cons_of_neg hmeans] at heq
          have hmem : message ∈ messages.filter means := by
            rw [heq]
            exact List.mem_cons_self
          exact absurd (List.mem_filter.mp hmem).2 hmeans
      · by_cases hmeans : means message = true
        · rw [if_neg htruth, List.filter_cons_of_pos hmeans] at heq
          have hmem : message ∈ rest := by
            rw [← heq]
            exact List.mem_cons_self
          rw [run_of_mem_select hrest hmem] at hrun
          exact absurd (Option.some.inj hrun).symm htruth
        · rw [if_neg htruth, List.filter_cons_of_neg hmeans] at heq
          exact ⟨⟨truth, hrun, iff_of_false htruth hmeans⟩, by rw [heq, hrest]⟩
    · rintro ⟨⟨truth, hrun, hmeans⟩, hrest⟩
      refine ⟨truth, _, hrun, hrest, ?_⟩
      rw [List.filter_cons]
      simp only [hmeans]

end Select

section Trees

variable {functions : Functions} {archive : Archive} {message : QueriedRow} {fragment : Fragment}

/-- A fragment that answers a value of two-valued logic. -/
def Decides (message : QueriedRow) (fragment : Fragment) (value : Bool) : Prop :=
  fragment.1.Yields message.scope fragment.2 (some (some value))

theorem Decides.negatedIf {negated value : Bool} (hdecides : Decides message fragment value) :
    Decides message (negatedIf negated fragment) (negated ^^ value) := by
  cases negated with
  | false => simpa [smart_mailboxes.negatedIf] using hdecides
  | true =>
    have hnot : (sql.Predicate.not fragment.1).Yields message.scope fragment.2 _ := sql.Predicate.Yields.not hdecides
    simpa [Decides, smart_mailboxes.negatedIf] using hnot

theorem Decides.and {other : Fragment} {value last : Bool} (hfirst : Decides message fragment value)
    (hother : Decides message other last) :
    Decides message (.and fragment.1 other.1, fragment.2 ++ other.2) (value && last) := by
  have hboth : (sql.Predicate.and fragment.1 other.1).Yields message.scope (fragment.2 ++ other.2) _ :=
    sql.Predicate.Yields.and hfirst hother
  simpa [Decides] using hboth

theorem Decides.or {other : Fragment} {value last : Bool} (hfirst : Decides message fragment value)
    (hother : Decides message other last) :
    Decides message (.or fragment.1 other.1, fragment.2 ++ other.2) (value || last) := by
  have hboth : (sql.Predicate.or fragment.1 other.1).Yields message.scope (fragment.2 ++ other.2) _ :=
    sql.Predicate.Yields.or hfirst hother
  simpa [Decides] using hboth

/-- Joining from the left folds the operator over the parts. -/
theorem joined_decides {operator : MailQueryGroupOperator} {parts : List Fragment} {value : Bool} {values : List Bool}
    (hfirst : Decides message fragment value) (hparts : List.Forall₂ (Decides message) parts values) :
    Decides message (joined operator fragment parts) (combined operator (value :: values)) := by
  induction hparts generalizing fragment value with
  | nil => cases operator <;> simpa [joined, combined] using hfirst
  | cons hpart _ ih =>
    cases operator with
    | All =>
      have hrest := ih (hfirst.and hpart)
      simpa [combined, joined, MailQueryGroupOperator.joiner, Bool.and_assoc] using hrest
    | Any =>
      have hrest := ih (hfirst.or hpart)
      simpa [combined, joined, MailQueryGroupOperator.joiner, Bool.or_assoc] using hrest

/-- A compiled condition is its field's fragment, negated if the condition is. -/
theorem fragment_of_condition {condition : MailQueryCondition}
    (hcompile : compile_mail_query_condition functions archive condition = .ok fragment) :
    ∃ field, compileField functions archive condition = .ok field ∧ fragment = negatedIf condition.negated field := by
  unfold compile_mail_query_condition at hcompile
  split at hcompile
  · cases hcompile
  · obtain ⟨field, hfield, hok⟩ := effects.except_bind_eq_ok_iff.mp hcompile
    exact ⟨field, hfield, (Except.ok.inj hok).symm⟩

theorem condition_decides {condition : MailQueryCondition} (hfaithful : Faithful functions archive condition message)
    (hcompile : compile_mail_query_condition functions archive condition = .ok fragment) :
    Decides message fragment (conditionMeans functions archive condition message) := by
  obtain ⟨field, hfield, rfl⟩ := fragment_of_condition hcompile
  obtain ⟨truth, hyields, hmeans, -⟩ := compileField_faithful hfield
  rw [hmeans.mpr hfaithful] at hyields
  exact Decides.negatedIf hyields

mutual

/-- The induction over rule trees: a tree of faithful conditions answers what it means. -/
theorem group_decides {group : MailQueryGroup} {fragment : Fragment}
    (hfaithful : ∀ condition ∈ group.conditions,
      (∃ fragment, compile_mail_query_condition functions archive condition = .ok fragment) →
        Faithful functions archive condition message)
    (hcompile : compile_mail_query_group functions archive group = .ok fragment) :
    Decides message fragment (groupMeans functions archive message group) := by
  match group with
  | .mk operator negated nodes =>
    rw [compile_mail_query_group] at hcompile
    obtain ⟨parts, hparts, hok⟩ := effects.except_bind_eq_ok_iff.mp hcompile
    have hnodes := nodes_decide hfaithful hparts
    rw [groupMeans]
    generalize nodesMean functions archive message nodes = values at hnodes ⊢
    cases hnodes with
    | nil =>
      obtain rfl := Except.ok.inj hok
      have hall : Decides message (.constant true, []) true := sql.Predicate.yields_constant
      exact hall.negatedIf
    | cons hfirst hrest =>
      obtain rfl := Except.ok.inj hok
      exact (joined_decides hfirst hrest).negatedIf

theorem nodes_decide {nodes : List MailQueryRuleNode} {fragments : List Fragment}
    (hfaithful : ∀ condition ∈ nodesConditions nodes,
      (∃ fragment, compile_mail_query_condition functions archive condition = .ok fragment) →
        Faithful functions archive condition message)
    (hcompile : compileNodes functions archive nodes = .ok fragments) :
    List.Forall₂ (Decides message) fragments (nodesMean functions archive message nodes) := by
  match nodes with
  | [] =>
    obtain rfl := Except.ok.inj hcompile
    exact List.Forall₂.nil
  | node :: nodes =>
    rw [compileNodes] at hcompile
    obtain ⟨fragment, hfragment, hrest⟩ := effects.except_bind_eq_ok_iff.mp hcompile
    obtain ⟨fragments, hfragments, hok⟩ := effects.except_bind_eq_ok_iff.mp hrest
    obtain rfl := Except.ok.inj hok
    rw [nodesConditions] at hfaithful
    refine List.Forall₂.cons (node_decides ?_ hfragment) (nodes_decide ?_ hfragments)
    · intro condition hcondition
      exact hfaithful condition (List.mem_append_left _ hcondition)
    · intro condition hcondition
      exact hfaithful condition (List.mem_append_right _ hcondition)

theorem node_decides {node : MailQueryRuleNode} {fragment : Fragment}
    (hfaithful : ∀ condition ∈ node.conditions,
      (∃ fragment, compile_mail_query_condition functions archive condition = .ok fragment) →
        Faithful functions archive condition message)
    (hcompile : compileNode functions archive node = .ok fragment) :
    Decides message fragment (nodeMeans functions archive message node) := by
  match node with
  | .Group group => exact group_decides hfaithful hcompile
  | .Condition condition =>
    exact condition_decides (hfaithful condition (List.mem_singleton.mpr rfl) ⟨fragment, hcompile⟩) hcompile

end

/-- The group of one condition. -/
def single (negated : Bool) (condition : MailQueryCondition) : MailQueryRule :=
  ⟨.mk .All negated [.Condition condition]⟩

theorem single_conditions {negated : Bool} {condition : MailQueryCondition} :
    (single negated condition).conditions = [condition] := by
  simp only [MailQueryRule.conditions, single, MailQueryGroup.conditions, nodesConditions,
    MailQueryRuleNode.conditions, List.append_nil]

theorem single_compile {negated : Bool} {condition : MailQueryCondition}
    (hcompile : compile_mail_query_condition functions archive condition = .ok fragment) :
    compile_mail_query_rule functions archive (single negated condition) = .ok (negatedIf negated fragment) := by
  simp only [compile_mail_query_rule, single, compile_mail_query_group, compileNodes, compileNode, hcompile]
  rfl

theorem single_means {negated : Bool} {condition : MailQueryCondition} :
    ruleMeans functions archive (single negated condition) message =
      (negated ^^ conditionMeans functions archive condition message) := by
  simp [ruleMeans, single, groupMeans, nodesMean, nodeMeans, combined]

def negatedAnswer (negated : Bool) (answer : Option sql.Truth) : Option sql.Truth :=
  if negated then answer.map sql.Truth.not else answer

theorem yields_negatedIf {negated : Bool} {answer : Option sql.Truth}
    (hyields : fragment.1.Yields message.scope fragment.2 answer) :
    (negatedIf negated fragment).1.Yields message.scope (negatedIf negated fragment).2 (negatedAnswer negated answer) := by
  cases negated with
  | false => exact hyields
  | true => exact hyields.not

/-- A fragment that selects with its negation what its condition means with its own is not null and does not fail. -/
theorem answer_of_both {answer : Option sql.Truth} {own means : Bool}
    (hboth : ∀ negated, ∃ truth, negatedAnswer negated (negatedAnswer own answer) = some truth ∧
      (truth = some true ↔ (negated ^^ (own ^^ means)) = true)) : answer = some (some means) := by
  obtain ⟨plain, hplain, hplainMeans⟩ := hboth false
  obtain ⟨flipped, hflipped, hflippedMeans⟩ := hboth true
  cases answer with
  | none => cases own <;> simp [negatedAnswer] at hplain
  | some truth =>
    cases truth with
    | none =>
      cases own <;> simp [negatedAnswer, sql.Truth.not] at hplain hflipped <;> subst hplain hflipped <;>
        cases means <;> simp_all
    | some value =>
      cases own <;> simp [negatedAnswer] at hplain <;> subst hplain <;> cases means <;> cases value <;> simp_all

/-- A set of conditions selects by meaning, in every rule tree over them, exactly when the conditions that compile
    are faithful on every row. -/
theorem rule_selects_iff_faithful (functions : Functions) (archive : Archive) (conditions : Set MailQueryCondition)
    (messages : List QueriedRow) :
    (∀ (rule : MailQueryRule) (fragment : Fragment), (∀ condition ∈ rule.conditions, condition ∈ conditions) →
      compile_mail_query_rule functions archive rule = .ok fragment →
      select fragment messages = some (messages.filter (ruleMeans functions archive rule))) ↔
    ∀ condition ∈ conditions, (∃ fragment, compile_mail_query_condition functions archive condition = .ok fragment) →
      ∀ message ∈ messages, Faithful functions archive condition message := by
  constructor
  · intro hselects condition hmem ⟨fragment, hcompile⟩ message hmessage
    obtain ⟨field, hfield, rfl⟩ := fragment_of_condition hcompile
    obtain ⟨answer, hyields, hmeans, -⟩ := compileField_faithful hfield
    -- The condition alone and its negation: a null or a failure is wrong for one of the two.
    have hboth : ∀ negated, ∃ truth, negatedAnswer negated (negatedAnswer condition.negated answer) = some truth ∧
        (truth = some true ↔
          (negated ^^ (condition.negated ^^ fieldMeans functions archive condition message)) = true) := by
      intro negated
      have hsingle : ∀ other ∈ (single negated condition).conditions, other ∈ conditions := by
        intro other hother
        rw [single_conditions, List.mem_singleton] at hother
        rwa [hother]
      have hselect := hselects (single negated condition) _ hsingle (single_compile hcompile)
      obtain ⟨truth, hrun, hsame⟩ := select_eq_filter_iff.mp hselect message hmessage
      rw [(yields_negatedIf (yields_negatedIf hyields)).run] at hrun
      rw [single_means, conditionMeans] at hsame
      exact ⟨truth, hrun, hsame⟩
    exact hmeans.mp (answer_of_both hboth)
  · intro hfaithful rule fragment hrule hcompile
    refine select_eq_filter_iff.mpr fun message hmessage => ?_
    have hdecides : Decides message fragment (ruleMeans functions archive rule message) :=
      group_decides (fun condition hcondition hcompiles =>
        hfaithful condition (hrule condition hcondition) hcompiles message hmessage) hcompile
    refine ⟨_, hdecides.run, ?_⟩
    rw [Option.some_inj]

end Trees

/-- Lowercasing as SQLite does it, and nothing else. -/
def asciiFunctions : Functions where
  to_lowercase := lower
  is_alphanumeric := Char.isAlphanum
  regex := fun _ => none
  datetime := fun _ => none
  datetime_now := fun _ => none

def emptyArchive : Archive where
  source_projection := fun _ => none
  message_mailbox_effective := []
  mailbox := []
  message_keyword_effective := []
  message_fts := fun _ => []

/-- A message about 500 things. -/
def fiveHundred : QueriedRow where
  toEffectiveRow := { datedRow "a" "m1" with subject := some "500 things" }
  size := 100

def percentRule : MailQueryRule := single false ⟨.Subject, .Contains, false, .String "50%"⟩

theorem percent_is_a_wildcard :
    ∃ fragment, compile_mail_query_rule asciiFunctions emptyArchive percentRule = .ok fragment ∧
      select fragment [fiveHundred] = some [fiveHundred] ∧
      [fiveHundred].filter (ruleMeans asciiFunctions emptyArchive percentRule) = [] :=
  ⟨_, rfl, by decide, by decide⟩

end posthaste.store.smart_mailboxes
