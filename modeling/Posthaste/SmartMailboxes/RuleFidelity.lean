import Posthaste.SmartMailboxes.RuleCompiler

open posthaste.model

namespace posthaste.store.smart_mailboxes

section Fragments

variable {functions : Functions} {scope : Scope} {column : SqlScalar} {fragment : Fragment}

theorem eq_String_of_expect {value : MailQueryValue} {text : String} (hvalue : expect_string_value value = .ok text) :
    value = .String text := by
  cases value <;> simp_all [expect_string_value]

theorem eq_Strings_of_expect {value : MailQueryValue} {values : List String}
    (hvalue : expect_strings_value value = .ok values) : value = .Strings values := by
  cases value <;> simp_all [expect_strings_value]

theorem textColumn_yields {read : Scope → Option String} :
    (textColumn read).Yields scope [] ((read scope).map .Text) :=
  sql.Scalar.yields_column

theorem coalesceEmpty_yields {text : Option String} (hcolumn : column.Yields scope [] (text.map .Text)) :
    (coalesceEmpty column).Yields scope [] (some (.Text (text.getD ""))) := by
  have hcall : (coalesceEmpty column).Yields scope [] _ := hcolumn.call
  cases text with
  | none => exact hcall
  | some _ => exact hcall

theorem equal_yields {text : Option String} {value : String} (hcolumn : column.Yields scope [] (text.map .Text)) :
    (sql.Predicate.compare equalTest column .bound).Yields scope [.Text value]
      (some (text.map fun text => decide (text = value))) := by
  have hcompare : (sql.Predicate.compare equalTest column .bound).Yields scope ([] ++ [SqlValue.Text value]) _ :=
    sql.Predicate.yields_compare hcolumn sql.Scalar.yields_bound
  cases text with
  | none => exact hcompare
  | some text =>
    have hsame : decide (SqlValue.Text text = SqlValue.Text value) = decide (text = value) := by simp
    rw [List.nil_append] at hcompare
    simpa only [Option.map_some, sql.compared, equalTest, hsame] using hcompare

theorem among_yields {text : Option String} {values : List String} (hcolumn : column.Yields scope [] (text.map .Text)) :
    (sql.Predicate.among column (texts values).length).Yields scope (texts values)
      (some (if values = [] then some false else text.map fun text => decide (text ∈ values))) := by
  have hamong : (sql.Predicate.among column (texts values).length).Yields scope ([] ++ texts values) _ :=
    sql.Predicate.yields_among hcolumn
  have hmem : ∀ text, decide (SqlValue.Text text ∈ texts values) = decide (text ∈ values) := by
    intro text
    simp [texts]
  have hempty : texts values = [] ↔ values = [] := by simp [texts]
  cases text with
  | none => simpa only [List.nil_append, sql.foundAmong, hempty, Option.map_none] using hamong
  | some text => simpa only [List.nil_append, sql.foundAmong, hempty, Option.map_some, hmem] using hamong

/-- What `LIKE` answers of a text under a text operator. -/
def likeReads (functions : Functions) (operator : MailQueryOperator) (value text : String) : Bool :=
  like.likes (likePattern functions operator value).1 (likePattern functions operator value).2.toList (lower text).toList

theorem likeFragment_yields {operator : MailQueryOperator} {text : Option String} {value : String}
    (hcolumn : column.Yields scope [] (text.map .Text)) :
    (likeFragment functions operator column value).1.Yields scope (likeFragment functions operator column value).2
      (some (text.map (likeReads functions operator value))) := by
  have hlowered : (lowered column).Yields scope [] _ := hcolumn.call
  have hcompare : (likeFragment functions operator column value).1.Yields scope
      ([] ++ [SqlValue.Text (likePattern functions operator value).2]) _ :=
    sql.Predicate.yields_compare hlowered sql.Scalar.yields_bound
  cases text with
  | none => exact hcompare
  | some text => exact hcompare

theorem regexpFragment_yields {text : Option String} {value : String}
    (hcolumn : column.Yields scope [] (text.map .Text)) :
    (regexpFragment functions column value).1.Yields scope (regexpFragment functions column value).2
      (text.elim (some none) fun text => (functions.regex value).map fun test => some (test text)) := by
  have hcompare : (regexpFragment functions column value).1.Yields scope ([] ++ [SqlValue.Text value]) _ :=
    sql.Predicate.yields_compare hcolumn sql.Scalar.yields_bound
  cases text with
  | none => exact hcompare
  | some text =>
    cases hregex : functions.regex value with
    | none => simpa [regexpFragment, sql.compared, regexpTest, hregex] using hcompare
    | some test => simpa [regexpFragment, sql.compared, regexpTest, hregex] using hcompare

theorem likeFragment_reads {operator : MailQueryOperator} {text value : String}
    (hcolumn : column.Yields scope [] (some (.Text text))) :
    (likeFragment functions operator column value).1.Yields scope (likeFragment functions operator column value).2
      (some (some (likeReads functions operator value text))) := by
  have hgiven : column.Yields scope [] ((some text).map .Text) := hcolumn
  exact likeFragment_yields hgiven

theorem regexpFragment_reads {text value : String} (hcolumn : column.Yields scope [] (some (.Text text))) :
    (regexpFragment functions column value).1.Yields scope (regexpFragment functions column value).2
      ((functions.regex value).map fun test => some (test text)) := by
  have hgiven : column.Yields scope [] ((some text).map .Text) := hcolumn
  exact regexpFragment_yields hgiven

/-- What a text fragment answers of a text that is not null. -/
def textReads (functions : Functions) (operator : MailQueryOperator) (value : MailQueryValue) (text : String) :
    Option sql.Truth :=
  match operator, value with
  | .Equals, .String value => some (some (text = value))
  | .In, .Strings values => some (some (text ∈ values))
  | .Regex, .String pattern => (functions.regex pattern).map fun test => some (test text)
  | _, .String value => some (some (likeReads functions operator value text))
  | _, _ => none

theorem in_clause_yields {text : Option String} {values : List String}
    (hcolumn : column.Yields scope [] (text.map .Text)) :
    (compile_in_clause column values).1.Yields scope (compile_in_clause column values).2
      (some (if values = [] then some false else text.map fun text => decide (text ∈ values))) := by
  rw [compile_in_clause]
  by_cases hempty : values = []
  · simp only [hempty, List.isEmpty_nil, if_true]
    exact sql.Predicate.yields_constant
  · have hnot : values.isEmpty = false := by simpa using hempty
    simp only [hnot, Bool.false_eq_true, if_false]
    exact among_yields hcolumn

theorem compile_text_field_yields {condition : MailQueryCondition} {text : Option String}
    (hcompile : compile_text_field functions condition column = .ok fragment)
    (hcolumn : column.Yields scope [] (text.map .Text)) :
    fragment.1.Yields scope fragment.2 (textReads functions condition.operator condition.value (text.getD "")) := by
  have hread : (coalesceEmpty column).Yields scope [] ((some (text.getD "")).map .Text) := coalesceEmpty_yields hcolumn
  unfold compile_text_field at hcompile
  split at hcompile
  case h_6 hoperator =>
    obtain ⟨values, hvalues, hok⟩ := effects.except_bind_eq_ok_iff.mp hcompile
    obtain rfl := Except.ok.inj hok
    rw [hoperator, eq_Strings_of_expect hvalues]
    have hin : (compile_in_clause (coalesceEmpty column) values).1.Yields scope _ _ := in_clause_yields hread
    by_cases hempty : values = []
    · simpa [textReads, hempty] using hin
    · simpa [textReads, hempty] using hin
  case h_7 => cases hcompile
  all_goals
    rename_i hoperator
    obtain ⟨value, hvalue, hok⟩ := effects.except_bind_eq_ok_iff.mp hcompile
    obtain rfl := Except.ok.inj hok
    rw [hoperator, eq_String_of_expect hvalue]
  · exact equal_yields hread
  · exact likeFragment_yields hread
  · exact likeFragment_yields hread
  · exact likeFragment_yields hread
  · exact regexpFragment_yields hread

theorem compile_simple_field_yields {condition : MailQueryCondition} {text : Option String}
    (hcompile : compile_simple_field condition column = .ok fragment)
    (hcolumn : column.Yields scope [] (text.map .Text)) :
    ∃ truth, fragment.1.Yields scope fragment.2 (some truth) ∧
      (truth = some (text.any (textMeans functions condition.operator condition.value)) ↔
        text.isSome ∨ condition.value = .Strings []) := by
  unfold compile_simple_field at hcompile
  split at hcompile
  case h_1 hoperator =>
    obtain ⟨value, hvalue, hok⟩ := effects.except_bind_eq_ok_iff.mp hcompile
    obtain rfl := Except.ok.inj hok
    rw [hoperator, eq_String_of_expect hvalue]
    refine ⟨_, equal_yields hcolumn, ?_⟩
    cases text with
    | none => simp
    | some text => simp [textMeans]
  case h_2 hoperator =>
    obtain ⟨values, hvalues, hok⟩ := effects.except_bind_eq_ok_iff.mp hcompile
    obtain rfl := Except.ok.inj hok
    rw [hoperator, eq_Strings_of_expect hvalues]
    refine ⟨_, in_clause_yields hcolumn, ?_⟩
    by_cases hempty : values = []
    · cases text with
      | none => simp [hempty]
      | some text => simp [hempty, textMeans]
    · cases text with
      | none => simp [hempty]
      | some text => simp [hempty, textMeans]
  case h_3 => cases hcompile

/-- A subquery over a column finds what the column's values that are not null mean. -/
theorem compile_exists_membership_yields {condition : MailQueryCondition} {rows : Scope → List Scope}
    {read : Scope → Option String}
    (hcompile : compile_exists_membership condition rows (textColumn read) = .ok fragment) :
    fragment.1.Yields scope fragment.2
      (some (some ((rows scope).any fun inner => (read inner).any
        (textMeans functions condition.operator condition.value)))) := by
  unfold compile_exists_membership at hcompile
  split at hcompile
  case h_1 hoperator =>
    obtain ⟨value, hvalue, hok⟩ := effects.except_bind_eq_ok_iff.mp hcompile
    obtain rfl := Except.ok.inj hok
    rw [hoperator, eq_String_of_expect hvalue]
    have hexists : (sql.Predicate.exists rows (.compare equalTest (textColumn read) .bound)).Yields scope
        [SqlValue.Text value] _ := sql.Predicate.yields_exists rfl fun inner _ => equal_yields textColumn_yields
    have hmeans : (fun inner => decide (((read inner).map fun text => decide (text = value)) = some true)) =
        fun inner => (read inner).any (textMeans functions .Equals (.String value)) := by
      funext inner
      cases read inner <;> simp [textMeans]
    rwa [sql.anyTrue_of_forall fun _ _ => rfl, hmeans] at hexists
  case h_2 hoperator =>
    obtain ⟨values, hvalues, hok⟩ := effects.except_bind_eq_ok_iff.mp hcompile
    obtain rfl := Except.ok.inj hok
    rw [hoperator, eq_Strings_of_expect hvalues]
    have hexists : (sql.Predicate.exists rows (.among (textColumn read) (texts values).length)).Yields scope
        (texts values) _ :=
      sql.Predicate.yields_exists (by simp [sql.Predicate.placeholders, textColumn, sql.Scalar.placeholders])
        fun inner _ => among_yields textColumn_yields
    have hmeans : (fun inner => decide ((if values = [] then some false
          else (read inner).map fun text => decide (text ∈ values)) = some true)) =
        fun inner => (read inner).any (textMeans functions .In (.Strings values)) := by
      funext inner
      by_cases hempty : values = []
      · cases read inner <;> simp [textMeans, hempty]
      · cases read inner <;> simp [textMeans, hempty]
    rwa [sql.anyTrue_of_forall fun _ _ => rfl, hmeans] at hexists
  case h_3 => cases hcompile

/-- How `LIKE` finds a lowercased value in a text: ASCII case aside, up to a NUL, and for `contains` with the
    value's own `%` and `_` as wildcards. -/
def likeFinds (operator : MailQueryOperator) (value text : List Char) : Prop :=
  match operator with
  | .BeginsWith => ∃ part after, like.cString text = part ++ after ∧
      (like.cString value).map Char.toLower = part.map Char.toLower ∧ ('\x00' ∈ value → after = [])
  | .EndsWith => ∃ before part, like.cString text = before ++ part ∧
      (like.cString value).map Char.toLower = part.map Char.toLower
  | _ => ∃ before part after, like.cString text = before ++ part ++ after ∧
      like.matchesTokens (like.tokens none (like.cString value)) part ∧ ('\x00' ∈ value → after = [])

/-- The value of a partial match is found in the texts as `LIKE` finds it exactly when it is there. A pattern that
    does not compile fails the statement as soon as there is a text. -/
def TextsFaithful (functions : Functions) (operator : MailQueryOperator) (value : MailQueryValue)
    (texts : List String) : Prop :=
  match operator, value with
  | .Regex, .String pattern => texts = [] ∨ (functions.regex pattern).isSome
  | .Contains, .String text | .BeginsWith, .String text | .EndsWith, .String text =>
    (∃ given ∈ texts, likeFinds operator (functions.to_lowercase text).toList (lower given).toList) ↔
      ∃ given ∈ texts, textMeans functions operator value given
  | _, _ => True

theorem map_toLower_lowered {text : String} {part : List Char} (hpart : part.Sublist (lower text).toList) :
    part.map Char.toLower = part := by
  have hall : ∀ c ∈ part, c.toLower = id c := by
    intro c hc
    have hmem := hpart.subset hc
    rw [lower, String.toList_ofList] at hmem
    obtain ⟨d, -, rfl⟩ := List.mem_map.mp hmem
    exact like.toLower_toLower d
  rw [List.map_congr_left hall, List.map_id]

/-- A value without wildcards or NUL is found literally in texts that both lowercasings agree on. -/
theorem likeFinds_iff_textMeans {operator : MailQueryOperator} {value text : String}
    (hpart : operator = .Contains ∨ operator = .BeginsWith ∨ operator = .EndsWith)
    (hvalue : '\x00' ∉ (functions.to_lowercase value).toList)
    (hplain : operator = .Contains → ∀ c ∈ (functions.to_lowercase value).toList, c ≠ '%' ∧ c ≠ '_')
    (hlowered : lower (functions.to_lowercase value) = functions.to_lowercase value)
    (htext : '\x00' ∉ (lower text).toList) (hsame : lower text = functions.to_lowercase text) :
    likeFinds operator (functions.to_lowercase value).toList (lower text).toList ↔
      textMeans functions operator (.String value) text := by
  have hfixed : (functions.to_lowercase value).toList.map Char.toLower = (functions.to_lowercase value).toList := by
    have htexts := congrArg String.toList hlowered
    rwa [lower, String.toList_ofList] at htexts
  rcases hpart with rfl | rfl | rfl
  · simp only [likeFinds, textMeans, ← hsame, like.cString_of_noNul hvalue, like.cString_of_noNul htext,
      like.tokens_of_plain (hplain rfl), like.matchesTokens_exact, hfixed, hvalue, false_implies, and_true,
      decide_eq_true_iff]
    constructor
    · rintro ⟨before, part, after, hsplit, hpart⟩
      have hinfix : part <:+: (lower text).toList := ⟨before, after, hsplit.symm⟩
      rw [map_toLower_lowered hinfix.sublist] at hpart
      rwa [hpart]
    · rintro hinfix
      obtain ⟨before, after, hsplit⟩ := id hinfix
      exact ⟨before, _, after, hsplit.symm, hfixed.symm⟩
  · simp only [likeFinds, textMeans, ← hsame, like.cString_of_noNul hvalue, like.cString_of_noNul htext, hfixed,
      hvalue, false_implies, and_true, decide_eq_true_iff]
    constructor
    · rintro ⟨part, after, hsplit, hpart⟩
      have hahead : part <+: (lower text).toList := ⟨after, hsplit.symm⟩
      rw [map_toLower_lowered hahead.sublist] at hpart
      rwa [hpart]
    · rintro ⟨after, hsplit⟩
      exact ⟨_, after, hsplit.symm, hfixed.symm⟩
  · simp only [likeFinds, textMeans, ← hsame, like.cString_of_noNul hvalue, like.cString_of_noNul htext, hfixed,
      decide_eq_true_iff]
    constructor
    · rintro ⟨before, part, hsplit, hpart⟩
      have hsuffix : part <:+ (lower text).toList := ⟨before, hsplit.symm⟩
      rw [map_toLower_lowered hsuffix.sublist] at hpart
      rwa [hpart]
    · rintro ⟨before, hsplit⟩
      exact ⟨before, _, hsplit.symm, hfixed.symm⟩

theorem likeReads_iff {operator : MailQueryOperator} {value text : String}
    (hpart : operator = .Contains ∨ operator = .BeginsWith ∨ operator = .EndsWith) :
    likeReads functions operator value text ↔
      likeFinds operator (functions.to_lowercase value).toList (lower text).toList := by
  rcases hpart with rfl | rfl | rfl
  · simp only [likeReads, likePattern, String.toList_append, likeFinds]
    exact like.likes_around
  · simp only [likeReads, likePattern, String.toList_append, escape_like, String.toList_ofList, likeFinds]
    exact like.likes_before (by decide) (by decide)
  · simp only [likeReads, likePattern, String.toList_append, escape_like, String.toList_ofList, likeFinds]
    exact like.likes_after (by decide) (by decide)

theorem partial_agrees_iff {operator : MailQueryOperator} {value : String} {means : String → Bool}
    {texts : List String} (hpart : operator = .Contains ∨ operator = .BeginsWith ∨ operator = .EndsWith) :
    some (texts.any (likeReads functions operator value)) = some (texts.any means) ↔
      ((∃ given ∈ texts, likeFinds operator (functions.to_lowercase value).toList (lower given).toList) ↔
        ∃ given ∈ texts, means given) := by
  rw [Option.some_inj, Bool.eq_iff_iff, List.any_eq_true, List.any_eq_true]
  simp only [likeReads_iff hpart]

/-- The shape of a value that an operator over texts compiles with. -/
def TextShape (operator : MailQueryOperator) (value : MailQueryValue) : Prop :=
  match operator, value with
  | .In, .Strings _ => True
  | .Equals, .String _ | .Contains, .String _ | .BeginsWith, .String _ | .EndsWith, .String _ | .Regex, .String _ => True
  | _, _ => False

theorem textsFaithful_iff {operator : MailQueryOperator} {value : MailQueryValue} {texts : List String}
    (hshape : TextShape operator value) :
    sql.anyTrue (textReads functions operator value) texts = some (texts.any (textMeans functions operator value)) ↔
      TextsFaithful functions operator value texts := by
  unfold TextShape at hshape
  split at hshape
  case h_1 | h_2 => exact iff_of_true (sql.anyTrue_of_decided fun _ _ => rfl) trivial
  case h_3 text =>
    exact (Eq.congr_left (sql.anyTrue_of_decided fun _ _ => rfl)).trans (partial_agrees_iff (Or.inl rfl))
  case h_4 text =>
    exact (Eq.congr_left (sql.anyTrue_of_decided fun _ _ => rfl)).trans (partial_agrees_iff (Or.inr (Or.inl rfl)))
  case h_5 text =>
    exact (Eq.congr_left (sql.anyTrue_of_decided fun _ _ => rfl)).trans (partial_agrees_iff (Or.inr (Or.inr rfl)))
  case h_6 pattern =>
    simp only [TextsFaithful]
    cases hregex : functions.regex pattern with
    | some test =>
      have hall : ∀ text ∈ texts, textReads functions .Regex (.String pattern) text = some (some (test text)) := by
        intro text _
        simp only [textReads, hregex, Option.map_some]
      have hmeans : textMeans functions .Regex (.String pattern) = test := by
        funext text
        simp only [textMeans, hregex, Option.any_some]
      rw [sql.anyTrue_of_decided hall, hmeans]
      simp
    | none =>
      cases texts with
      | nil => exact iff_of_true rfl (Or.inl rfl)
      | cons text texts =>
        have hfails : textReads functions .Regex (.String pattern) text = none := by
          simp only [textReads, hregex, Option.map_none]
        rw [sql.anyTrue_of_failing List.mem_cons_self hfails]
        simp
  case h_7 => exact hshape.elim

/-- A fragment answers the meaning exactly when its condition is faithful, and answers at all unless it is a regex
    that is not. -/
def Answers (scope : Scope) (operator : MailQueryOperator) (fragment : Fragment) (means : Bool) (faithful : Prop) :
    Prop :=
  ∃ answer, fragment.1.Yields scope fragment.2 answer ∧ (answer = some (some means) ↔ faithful) ∧
    (answer.isSome ↔ (operator = .Regex → faithful))

theorem answers_of_faithful {operator : MailQueryOperator} {means : Bool} {faithful : Prop}
    (hyields : fragment.1.Yields scope fragment.2 (some (some means))) (hfaithful : faithful) :
    Answers scope operator fragment means faithful :=
  ⟨_, hyields, iff_of_true rfl hfaithful, iff_of_true rfl fun _ => hfaithful⟩

theorem anyTrue_textReads_isSome_iff {operator : MailQueryOperator} {value : MailQueryValue} {texts : List String}
    (hshape : TextShape operator value) :
    (sql.anyTrue (textReads functions operator value) texts).isSome ↔
      (operator = .Regex → TextsFaithful functions operator value texts) := by
  by_cases hregex : operator = .Regex
  · rw [imp_iff_right hregex, ← textsFaithful_iff hshape]
    subst hregex
    cases value with
    | String pattern =>
      cases hpattern : functions.regex pattern with
      | none =>
        cases texts with
        | nil => exact iff_of_true rfl rfl
        | cons text texts =>
          have hfails : textReads functions .Regex (.String pattern) text = none := by
            simp only [textReads, hpattern, Option.map_none]
          rw [sql.anyTrue_of_failing List.mem_cons_self hfails]
          simp
      | some test =>
        have hall : ∀ text ∈ texts, textReads functions .Regex (.String pattern) text =
            some (some (textMeans functions .Regex (.String pattern) text)) := by
          intro text _
          simp only [textReads, textMeans, hpattern, Option.map_some, Option.any_some]
        rw [sql.anyTrue_of_decided hall]
        simp
    | Strings values | Bool value | Date value => exact hshape.elim
  · refine iff_of_true ?_ fun hoperator => absurd hoperator hregex
    have hall : ∀ text ∈ texts, ∃ value', textReads functions operator value text = some (some value') := by
      intro text _
      unfold TextShape at hshape
      split at hshape
      case h_6 => exact absurd rfl hregex
      case h_7 => exact hshape.elim
      all_goals exact ⟨_, rfl⟩
    choose! answer hanswer using hall
    rw [sql.anyTrue_of_decided hanswer]
    rfl

theorem textReads_decided {operator : MailQueryOperator} {value : MailQueryValue} {text : String} {truth : sql.Truth}
    (hreads : textReads functions operator value text = some truth) : truth ≠ none := by
  unfold textReads at hreads
  split at hreads
  case h_3 =>
    obtain ⟨test, -, rfl⟩ := Option.map_eq_some_iff.mp hreads
    exact Option.some_ne_none _
  case h_5 => cases hreads
  all_goals
    obtain rfl := Option.some.inj hreads
    exact Option.some_ne_none _

theorem shape_of_compile_text_field {condition : MailQueryCondition}
    (hcompile : compile_text_field functions condition column = .ok fragment) :
    TextShape condition.operator condition.value := by
  unfold compile_text_field at hcompile
  split at hcompile
  case h_6 hoperator =>
    obtain ⟨values, hvalues, -⟩ := effects.except_bind_eq_ok_iff.mp hcompile
    rw [hoperator, eq_Strings_of_expect hvalues]
    trivial
  case h_7 => cases hcompile
  all_goals
    rename_i hoperator
    obtain ⟨value, hvalue, -⟩ := effects.except_bind_eq_ok_iff.mp hcompile
    rw [hoperator, eq_String_of_expect hvalue]
    trivial

/-- On one text, SQL's answer is the meaning exactly when the text is tested faithfully. -/
theorem textReads_eq_iff {operator : MailQueryOperator} {value : MailQueryValue} {text : String}
    (hshape : TextShape operator value) :
    textReads functions operator value text = some (some (textMeans functions operator value text)) ↔
      TextsFaithful functions operator value [text] := by
  rw [← textsFaithful_iff hshape, sql.anyTrue_cons]
  cases hreads : textReads functions operator value text with
  | none => simp
  | some truth =>
    cases truth with
    | none => exact absurd rfl (textReads_decided hreads)
    | some answer => simp [sql.anyTrue]

theorem compile_text_field_faithful {condition : MailQueryCondition} {text : Option String}
    (hcompile : compile_text_field functions condition column = .ok fragment)
    (hcolumn : column.Yields scope [] (text.map .Text)) :
    Answers scope condition.operator fragment (textMeans functions condition.operator condition.value (text.getD ""))
      (TextsFaithful functions condition.operator condition.value [text.getD ""]) := by
  have hshape := shape_of_compile_text_field hcompile
  refine ⟨_, compile_text_field_yields hcompile hcolumn, textReads_eq_iff hshape, ?_⟩
  rw [← anyTrue_textReads_isSome_iff hshape, sql.anyTrue_cons]
  cases textReads functions condition.operator condition.value (text.getD "") <;> simp [sql.anyTrue]

/-- A subquery whose rows test texts is faithful when all the texts together are. -/
theorem exists_texts_faithful {operator : MailQueryOperator} {value : MailQueryValue} {rows : Scope → List Scope}
    {body : SqlPredicate} {own : List SqlValue} {truth : Scope → Option sql.Truth} {parts : Scope → List String}
    (hshape : TextShape operator value) (hcount : body.placeholders = own.length)
    (hbody : ∀ inner ∈ rows scope, body.Yields inner own (truth inner))
    (hparts : ∀ inner ∈ rows scope, (truth inner).map (decide <| · = some true) =
      sql.anyTrue (textReads functions operator value) (parts inner)) :
    Answers scope operator (.exists rows body, own) (((rows scope).flatMap parts).any (textMeans functions operator value))
      (TextsFaithful functions operator value ((rows scope).flatMap parts)) := by
  refine ⟨_, sql.Predicate.yields_exists hcount hbody, ?_⟩
  rw [sql.anyTrue_flatMap hparts, ← anyTrue_textReads_isSome_iff hshape, ← textsFaithful_iff hshape]
  cases sql.anyTrue (textReads functions operator value) ((rows scope).flatMap parts) <;> simp

/-- A test of a column that may be null, behind `IS NOT NULL`. -/
theorem present_parts {operator : MailQueryOperator} {value : MailQueryValue} {text : Option String}
    {last : Option sql.Truth} (hnull : text = none → last.isSome)
    (hlast : ∀ given, text = some given → last = textReads functions operator value given) :
    ((some (some text.isSome) : Option sql.Truth).bind fun first => last.map first.and).map (decide <| · = some true) =
      sql.anyTrue (textReads functions operator value) text.toList := by
  cases text with
  | none =>
    obtain ⟨truth, rfl⟩ := Option.isSome_iff_exists.mp (hnull rfl)
    rfl
  | some given =>
    have hreads := hlast given rfl
    rw [Option.toList_some, sql.anyTrue_cons, ← hreads]
    cases hlast : last with
    | none => rfl
    | some truth =>
      cases truth with
      | none => simp [sql.anyTrue, sql.Truth.and]
      | some answer => cases answer <;> simp [sql.anyTrue, sql.Truth.and]

theorem present_yields {text : Option String} (hcolumn : column.Yields scope [] (text.map .Text)) :
    (sql.Predicate.present column).Yields scope [] (some (some text.isSome)) := by
  have hsame : (text.map SqlValue.Text).isSome = text.isSome := Option.isSome_map
  rw [← hsame]
  exact sql.Predicate.yields_present hcolumn

theorem compile_exists_text_membership_faithful {condition : MailQueryCondition} {rows : Scope → List Scope}
    {read : Scope → Option String}
    (hcompile : compile_exists_text_membership functions condition rows (textColumn read) = .ok fragment) :
    Answers scope condition.operator fragment (((rows scope).flatMap fun inner => (read inner).toList).any
        (textMeans functions condition.operator condition.value))
      (TextsFaithful functions condition.operator condition.value
        ((rows scope).flatMap fun inner => (read inner).toList)) := by
  have hany : ((rows scope).flatMap fun inner => (read inner).toList).any
      (textMeans functions condition.operator condition.value) =
        (rows scope).any fun inner => (read inner).any (textMeans functions condition.operator condition.value) := by
    rw [List.any_flatMap]
    congr 1
    funext inner
    cases read inner <;> simp
  unfold compile_exists_text_membership at hcompile
  split at hcompile
  case h_1 hoperator =>
    have hsame : compile_exists_membership condition rows (textColumn read) = .ok fragment := by
      simpa only [compile_exists_membership, hoperator] using hcompile
    obtain ⟨value, hvalue, -⟩ := effects.except_bind_eq_ok_iff.mp hcompile
    rw [hany]
    refine answers_of_faithful (compile_exists_membership_yields hsame) ?_
    rw [hoperator, eq_String_of_expect hvalue]
    trivial
  case h_6 hoperator =>
    have hsame : compile_exists_membership condition rows (textColumn read) = .ok fragment := by
      simpa only [compile_exists_membership, hoperator] using hcompile
    obtain ⟨values, hvalues, -⟩ := effects.except_bind_eq_ok_iff.mp hcompile
    rw [hany]
    refine answers_of_faithful (compile_exists_membership_yields hsame) ?_
    rw [hoperator, eq_Strings_of_expect hvalues]
    trivial
  case h_7 => cases hcompile
  all_goals
    rename_i hoperator
    obtain ⟨value, hvalue, hok⟩ := effects.except_bind_eq_ok_iff.mp hcompile
    obtain rfl := Except.ok.inj hok
    rw [hoperator, eq_String_of_expect hvalue]
  case h_5 =>
    refine exists_texts_faithful trivial rfl
      (fun inner _ => (present_yields textColumn_yields).and (regexpFragment_yields textColumn_yields)) ?_
    intro inner _
    refine present_parts ?_ ?_
    · intro hnull
      rw [hnull]
      rfl
    · intro given hgiven
      rw [hgiven]
      rfl
  all_goals
    refine exists_texts_faithful trivial rfl
      (fun inner _ => (present_yields textColumn_yields).and (likeFragment_yields textColumn_yields)) ?_
    intro inner _
    refine present_parts (fun _ => Option.isSome_some) ?_
    intro given hgiven
    rw [hgiven]
    rfl

/-- The two parts of an address a partial match may find its text in. -/
def recipientTexts (recipient : Recipient) : List String := [recipient.email, recipient.name.getD ""]

theorem either_reads {operator : MailQueryOperator} {value : MailQueryValue} {email name : String} :
    ((textReads functions operator value email).bind fun first =>
        (textReads functions operator value name).map first.or).map (decide <| · = some true) =
      sql.anyTrue (textReads functions operator value) [email, name] := by
  rw [sql.anyTrue_cons, sql.anyTrue_cons]
  cases hemail : textReads functions operator value email with
  | none => rfl
  | some first =>
    cases hname : textReads functions operator value name with
    | none => rfl
    | some second =>
      obtain ⟨left, rfl⟩ := Option.ne_none_iff_exists'.mp (textReads_decided hemail)
      obtain ⟨right, rfl⟩ := Option.ne_none_iff_exists'.mp (textReads_decided hname)
      cases left <;> cases right <;> rfl

theorem eitherPart_yields {part : SqlScalar → Fragment} {reads : String → Option sql.Truth} {own : List SqlValue}
    {recipient : Recipient} (hrecipient : scope.recipient = some recipient)
    (hpart : ∀ (operand : SqlScalar) (text : String), operand.Yields scope [] (some (.Text text)) →
      (part operand).1.Yields scope own (reads text)) :
    (sql.Predicate.or (part (coalesceEmpty recipientEmail)).1 (part (coalesceEmpty recipientName)).1).Yields scope
      (own ++ own) ((reads recipient.email).bind fun first => (reads (recipient.name.getD "")).map first.or) := by
  have hemail : (coalesceEmpty recipientEmail).Yields scope [] _ := coalesceEmpty_yields textColumn_yields
  have hname : (coalesceEmpty recipientName).Yields scope [] _ := coalesceEmpty_yields textColumn_yields
  simp only [hrecipient, Option.map_some, Option.getD_some, Option.bind_some] at hemail hname
  exact (hpart _ _ hemail).or (hpart _ _ hname)

theorem mem_recipientRows {inner : Scope} (hinner : inner ∈ recipientRows scope) :
    ∃ recipient ∈ scope.message.to_, inner.recipient = some recipient := by
  obtain ⟨recipient, hmem, rfl⟩ := List.mem_map.mp hinner
  exact ⟨recipient, hmem, rfl⟩

/-- An exact match of the email, over all recipients. -/
theorem recipient_membership_yields {condition : MailQueryCondition}
    (hcompile : compile_exists_membership condition recipientRows recipientEmail = .ok fragment) :
    fragment.1.Yields scope fragment.2 (some (some (scope.message.to_.any fun recipient =>
      textMeans functions condition.operator condition.value recipient.email))) := by
  have hyields : fragment.1.Yields scope fragment.2 (some (some ((recipientRows scope).any fun inner =>
      (inner.recipient.map (·.email)).any (textMeans functions condition.operator condition.value)))) :=
    compile_exists_membership_yields hcompile
  rw [recipientRows, List.any_map] at hyields
  exact hyields

/-- A partial match of either part, over all recipients. -/
theorem eitherPart_faithful {operator : MailQueryOperator} {value : MailQueryValue} {part : SqlScalar → Fragment}
    {own : List SqlValue} (hshape : TextShape operator value) (hequals : operator ≠ .Equals) (hin : operator ≠ .In)
    (hown : ∀ operand, (part operand).2 = own)
    (hcount : (part (coalesceEmpty recipientEmail)).1.placeholders +
      (part (coalesceEmpty recipientName)).1.placeholders = (own ++ own).length)
    (hpart : ∀ (inner : Scope) (operand : SqlScalar) (text : String), operand.Yields inner [] (some (.Text text)) →
      (part operand).1.Yields inner own (textReads functions operator value text)) :
    Answers scope operator (.exists recipientRows (eitherPart part).1, (eitherPart part).2)
      (scope.message.to_.any (recipientMeans functions operator value))
      (TextsFaithful functions operator value (scope.message.to_.flatMap recipientTexts)) := by
  have htexts : (recipientRows scope).flatMap (fun inner => inner.recipient.elim [] recipientTexts) =
      scope.message.to_.flatMap recipientTexts := by
    rw [recipientRows, List.flatMap_map]
    rfl
  have hmeans : (scope.message.to_.flatMap recipientTexts).any (textMeans functions operator value) =
      scope.message.to_.any (recipientMeans functions operator value) := by
    rw [List.any_flatMap]
    congr 1
    funext recipient
    cases operator <;> simp_all [recipientMeans, recipientTexts]
  rw [← hmeans, ← htexts, eitherPart, hown, hown]
  have hbody : ∀ inner ∈ recipientRows scope, (sql.Predicate.or (part (coalesceEmpty recipientEmail)).1
      (part (coalesceEmpty recipientName)).1).Yields inner (own ++ own)
        (inner.recipient.elim (some none) fun recipient =>
          (textReads functions operator value recipient.email).bind fun first =>
            (textReads functions operator value (recipient.name.getD "")).map first.or) := by
    intro inner hinner
    obtain ⟨recipient, -, hrecipient⟩ := mem_recipientRows hinner
    simp only [hrecipient, Option.elim_some]
    exact eitherPart_yields hrecipient (hpart inner)
  refine exists_texts_faithful hshape hcount hbody ?_
  intro inner hinner
  obtain ⟨recipient, -, hrecipient⟩ := mem_recipientRows hinner
  simp only [hrecipient, Option.elim_some]
  exact either_reads

theorem compile_recipient_json_field_faithful {condition : MailQueryCondition}
    (hcompile : compile_recipient_json_field functions condition = .ok fragment) :
    Answers scope condition.operator fragment
      (scope.message.to_.any (recipientMeans functions condition.operator condition.value))
      (TextsFaithful functions condition.operator condition.value (scope.message.to_.flatMap recipientTexts)) := by
  unfold compile_recipient_json_field at hcompile
  split at hcompile
  case h_1 hoperator =>
    have hsame : compile_exists_membership condition recipientRows recipientEmail = .ok fragment := by
      simpa only [compile_exists_membership, hoperator] using hcompile
    obtain ⟨value, hvalue, -⟩ := effects.except_bind_eq_ok_iff.mp hcompile
    have hyields : fragment.1.Yields scope fragment.2 (some (some (scope.message.to_.any fun recipient =>
        textMeans functions condition.operator condition.value recipient.email))) := recipient_membership_yields hsame
    rw [hoperator, eq_String_of_expect hvalue] at hyields ⊢
    exact answers_of_faithful hyields trivial
  case h_6 hoperator =>
    obtain ⟨values, hvalues, hok⟩ := effects.except_bind_eq_ok_iff.mp hcompile
    rw [eq_Strings_of_expect hvalues]
    by_cases hempty : values.isEmpty
    · rw [if_pos hempty] at hok
      obtain rfl := Except.ok.inj hok
      obtain rfl := List.isEmpty_iff.mp hempty
      rw [hoperator]
      have hnone : scope.message.to_.any (recipientMeans functions .In (.Strings [])) = false := by
        simp [recipientMeans, textMeans]
      rw [hnone]
      exact answers_of_faithful sql.Predicate.yields_constant trivial
    · have hsame : compile_exists_membership condition recipientRows recipientEmail = .ok fragment := by
        rw [if_neg hempty] at hok
        simpa only [compile_exists_membership, hoperator, hvalues, effects.except_bind_ok] using hok
      have hyields : fragment.1.Yields scope fragment.2 (some (some (scope.message.to_.any fun recipient =>
          textMeans functions condition.operator condition.value recipient.email))) := recipient_membership_yields hsame
      rw [hoperator, eq_Strings_of_expect hvalues] at hyields
      rw [hoperator]
      exact answers_of_faithful hyields trivial
  case h_7 => cases hcompile
  all_goals
    rename_i hoperator
    obtain ⟨value, hvalue, hok⟩ := effects.except_bind_eq_ok_iff.mp hcompile
    obtain rfl := Except.ok.inj hok
    rw [hoperator, eq_String_of_expect hvalue]
  case h_5 =>
    exact eitherPart_faithful trivial (by decide) (by decide) (fun _ => rfl) rfl
      fun _ _ _ hoperand => regexpFragment_reads hoperand
  all_goals
    exact eitherPart_faithful trivial (by decide) (by decide) (fun _ => rfl) rfl
      fun _ _ _ hoperand => likeFragment_reads hoperand

end Fragments

end posthaste.store.smart_mailboxes
