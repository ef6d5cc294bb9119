import Mathlib.Order.Basic

namespace effects

theorem except_bind_eq_ok_iff {ε α β : Type} {first : Except ε α} {next : α → Except ε β} {result : β} :
    (first >>= next) = .ok result ↔ ∃ value, first = .ok value ∧ next value = .ok result := by
  cases first with
  | error error => simp [bind, Except.bind]
  | ok value => simp [bind, Except.bind]

theorem except_bind_ok {ε α β : Type} (value : α) (next : α → Except ε β) :
    ((.ok value : Except ε α) >>= next) = next value := rfl

theorem except_map_eq_ok_iff {ε α β : Type} {first : Except ε α} {change : α → β} {result : β} :
    first.map change = .ok result ↔ ∃ value, first = .ok value ∧ change value = result := by
  cases first with
  | error error => simp [Except.map]
  | ok value => simp [Except.map]

theorem except_mapM_of_ok {ε α β : Type} {read : α → Except ε β} {value : α → β} {rows : List α}
    (hread : ∀ row ∈ rows, read row = .ok (value row)) : rows.mapM read = .ok (rows.map value) := by
  induction rows with
  | nil => rfl
  | cons row rows ih =>
    have hrest := ih fun other hother => hread other (List.mem_cons_of_mem _ hother)
    rw [List.mapM_cons, hread row List.mem_cons_self, except_bind_ok, hrest, except_bind_ok]
    rfl

/-- A fold whose steps all succeed succeeds. -/
theorem except_foldlM_ok {ε α β : Type} {step : β → α → Except ε β} {items : List α} {state : β}
    (hstep : ∀ item ∈ items, ∀ before, ∃ after, step before item = .ok after) :
    ∃ after, items.foldlM step state = .ok after := by
  induction items generalizing state with
  | nil => exact ⟨state, rfl⟩
  | cons item items ih =>
    obtain ⟨after, hafter⟩ := hstep item List.mem_cons_self state
    rw [List.foldlM_cons, hafter]
    exact ih fun other hother => hstep other (List.mem_cons_of_mem _ hother)

theorem ok_of_except_mapM {ε α β : Type} {read : α → Except ε β} {rows : List α} :
    ∀ {values : List β}, rows.mapM read = .ok values → ∀ row ∈ rows, ∃ value, read row = .ok value := by
  induction rows with
  | nil => simp
  | cons first rows ih =>
    intro values hvalues row hrow
    rw [List.mapM_cons] at hvalues
    obtain ⟨value, hfirst, hrest⟩ := except_bind_eq_ok_iff.mp hvalues
    obtain ⟨others, hothers, -⟩ := except_bind_eq_ok_iff.mp hrest
    rcases List.mem_cons.mp hrow with rfl | hmem
    · exact ⟨value, hfirst⟩
    · exact ih hothers row hmem

section State

variable {ε σ α β : Type} {first : EStateM ε σ α} {next : α → EStateM ε σ β} {before middle after : σ}

theorem run_bind_eq_ok_iff {result : β} :
    (first >>= next).run before = .ok result after ↔
      ∃ value middle, first.run before = .ok value middle ∧ (next value).run middle = .ok result after := by
  show EStateM.bind first next before = _ ↔ _
  unfold EStateM.bind EStateM.run
  cases first before with
  | ok value middle =>
    constructor
    · intro hnext
      exact ⟨value, middle, rfl, hnext⟩
    · rintro ⟨_, _, heq, hnext⟩
      cases heq
      exact hnext
  | error error middle => simp

theorem run_bind_of_ok {value : α} (hfirst : first.run before = .ok value middle) :
    (first >>= next).run before = (next value).run middle := by
  show EStateM.bind first next before = _
  simp only [EStateM.bind]
  rw [show first before = .ok value middle from hfirst]
  rfl

theorem run_bind_of_error {error : ε} (hfirst : first.run before = .error error middle) :
    (first >>= next).run before = .error error middle := by
  show EStateM.bind first next before = _
  simp only [EStateM.bind]
  rw [show first before = .error error middle from hfirst]

/-- The state a run ends in, whether or not it failed. -/
def final : EStateM.Result ε σ α → σ
  | .ok _ after => after
  | .error _ after => after

theorem run_bind_eq_error_iff {error : ε} :
    (first >>= next).run before = .error error after ↔ first.run before = .error error after ∨
      ∃ value middle, first.run before = .ok value middle ∧ (next value).run middle = .error error after := by
  show EStateM.bind first next before = _ ↔ _
  unfold EStateM.bind EStateM.run
  cases first before with
  | ok value middle =>
    constructor
    · intro hnext
      exact Or.inr ⟨value, middle, rfl, hnext⟩
    · rintro (heq | ⟨_, _, heq, hnext⟩)
      · cases heq
      · cases heq
        exact hnext
  | error error middle => simp

/-- Dropping a result leaves the final state alone. -/
theorem final_bind_pure (drop : α → β) :
    final ((first >>= fun value => pure (drop value)).run before) = final (first.run before) := by
  cases hfirst : first.run before with
  | ok value middle =>
    rw [run_bind_of_ok hfirst]
    rfl
  | error error middle =>
    rw [run_bind_of_error hfirst]
    rfl

/-- What follows and only reads leaves the final state alone. -/
theorem final_bind_of_kept (hkept : ∀ value state, final ((next value).run state) = state) :
    final ((first >>= next).run before) = final (first.run before) := by
  cases hfirst : first.run before with
  | ok value middle =>
    rw [run_bind_of_ok hfirst]
    exact hkept value middle
  | error error middle =>
    rw [run_bind_of_error hfirst]
    rfl

theorem ok_of_adaptExcept {ε' : Type} {program : EStateM ε σ α} {convert : ε → ε'} {value : α}
    (hrun : (program.adaptExcept convert).run before = .ok value after) : program.run before = .ok value after := by
  change EStateM.adaptExcept convert program before = _ at hrun
  unfold EStateM.adaptExcept at hrun
  show program before = _
  cases hprogram : program before with
  | ok result middle =>
    rw [hprogram] at hrun
    cases hrun
    rfl
  | error error middle =>
    rw [hprogram] at hrun
    cases hrun

theorem adaptExcept_of_error {ε' : Type} {program : EStateM ε σ α} {convert : ε → ε'} {error : ε}
    (hrun : program.run before = .error error after) :
    (program.adaptExcept convert).run before = .error (convert error) after := by
  show EStateM.adaptExcept convert program before = _
  unfold EStateM.adaptExcept
  rw [show program before = .error error after from hrun]

theorem adaptExcept_of_ok {ε' : Type} {program : EStateM ε σ α} {convert : ε → ε'} {value : α}
    (hrun : program.run before = .ok value after) : (program.adaptExcept convert).run before = .ok value after := by
  show EStateM.adaptExcept convert program before = _
  unfold EStateM.adaptExcept
  rw [show program before = .ok value after from hrun]

theorem final_adaptExcept {ε' : Type} {program : EStateM ε σ α} {convert : ε → ε'} :
    final ((program.adaptExcept convert).run before) = final (program.run before) := by
  cases hrun : program.run before with
  | ok value after =>
    rw [adaptExcept_of_ok hrun]
    rfl
  | error error after =>
    rw [adaptExcept_of_error hrun]
    rfl

end State

section Along

variable {ε ε' σ α β : Type} {relation : σ → σ → Prop}

/-- However a run ends, its last state is related to its first. -/
def Along (relation : σ → σ → Prop) (program : EStateM ε σ α) : Prop :=
  ∀ before, relation before (final (program.run before))

namespace Along

variable [IsPreorder σ relation]

theorem pure (value : α) : Along relation (Pure.pure value : EStateM ε σ α) := fun before => refl_of relation before

theorem throw (error : ε) : Along relation (MonadExcept.throw error : EStateM ε σ α) :=
  fun before => refl_of relation before

theorem bind {first : EStateM ε σ α} {next : α → EStateM ε σ β} (hfirst : Along relation first)
    (hnext : ∀ value, Along relation (next value)) : Along relation (first >>= next) := by
  intro before
  have hstep := hfirst before
  cases hrun : first.run before with
  | ok value middle =>
    rw [run_bind_of_ok hrun]
    rw [hrun] at hstep
    exact trans_of relation hstep (hnext value middle)
  | error error middle =>
    rw [run_bind_of_error hrun]
    rw [hrun] at hstep
    exact hstep

theorem forM {step : α → EStateM ε σ Unit} (hstep : ∀ item, Along relation (step item)) (items : List α) :
    Along relation (items.forM step) := by
  induction items with
  | nil => exact Along.pure ()
  | cons item items ih => exact Along.bind (hstep item) fun _ => ih

omit [IsPreorder σ relation] in
theorem adaptExcept {program : EStateM ε σ α} (hprogram : Along relation program) (convert : ε → ε') :
    Along relation (program.adaptExcept convert) := by
  intro before
  rw [final_adaptExcept]
  exact hprogram before

end Along

end Along

/-- Tries that each keep what a whole run depends on make no difference to it. -/
theorem redelivered {σ ρ τ κ : Type} {attempt : σ → κ → σ} {whole : σ → ρ} {summary : σ → τ}
    (hkept : ∀ state try_, summary (attempt state try_) = summary state)
    (hdetermined : ∀ first second, summary first = summary second → whole first = whole second)
    (start : σ) (tries : List κ) : whole (tries.foldl attempt start) = whole start := by
  apply hdetermined
  induction tries generalizing start with
  | nil => rfl
  | cons try_ tries ih => exact (ih (attempt start try_)).trans (hkept start try_)

section Statements

variable {ε σ ω α β : Type} {apply : σ → ω → σ} {allowed wider : ω → Prop}

/-- The call does to the state what some sequence of allowed statements does, also where it fails. -/
def Makes (apply : σ → ω → σ) (allowed : ω → Prop) (call : EStateM ε σ α) : Prop :=
  ∀ before, ∃ statements : List ω, (∀ statement ∈ statements, allowed statement) ∧
    final (call.run before) = statements.foldl apply before

theorem makes_of_unchanged {call : EStateM ε σ α} (hcall : ∀ before, final (call.run before) = before) :
    Makes apply allowed call :=
  fun before => ⟨[], fun _ hmem => absurd hmem List.not_mem_nil, hcall before⟩

theorem makes_of_one {call : EStateM ε σ α}
    (hcall : ∀ before, ∃ statement, allowed statement ∧ final (call.run before) = apply before statement) :
    Makes apply allowed call := by
  intro before
  obtain ⟨statement, hallowed, hfinal⟩ := hcall before
  refine ⟨[statement], fun other hother => ?_, hfinal⟩
  rw [List.mem_singleton.mp hother]
  exact hallowed

theorem makes_pure (value : α) : Makes apply allowed (pure value : EStateM ε σ α) :=
  makes_of_unchanged fun _ => rfl

private theorem chained {before middle after : σ} {first second : List ω}
    (hfirst : ∀ statement ∈ first, allowed statement) (hmiddle : middle = first.foldl apply before)
    (hsecond : ∀ statement ∈ second, allowed statement) (hafter : after = second.foldl apply middle) :
    ∃ statements : List ω, (∀ statement ∈ statements, allowed statement) ∧ after = statements.foldl apply before := by
  refine ⟨first ++ second, fun statement hmem => ?_, ?_⟩
  · obtain hmem | hmem := List.mem_append.mp hmem
    · exact hfirst statement hmem
    · exact hsecond statement hmem
  · rw [hafter, hmiddle, List.foldl_append]

theorem Makes.bind {first : EStateM ε σ α} {next : α → EStateM ε σ β} (hfirst : Makes apply allowed first)
    (hnext : ∀ value, Makes apply allowed (next value)) : Makes apply allowed (first >>= next) := by
  intro before
  obtain ⟨statements, hallowed, hmiddle⟩ := hfirst before
  cases hrun : first.run before with
  | error error middle =>
    rw [hrun] at hmiddle
    rw [run_bind_of_error hrun]
    exact ⟨statements, hallowed, hmiddle⟩
  | ok value middle =>
    rw [hrun] at hmiddle
    rw [run_bind_of_ok hrun]
    obtain ⟨later, hlater, hafter⟩ := hnext value middle
    exact chained hallowed hmiddle hlater hafter

theorem tryCatch_run (body : EStateM ε σ α) (handler : ε → EStateM ε σ α) (before : σ) :
    (tryCatch body handler).run before =
      match body.run before with
      | .ok value middle => .ok value middle
      | .error error middle => (handler error).run middle := by
  show EStateM.tryCatch body handler before = _
  unfold EStateM.tryCatch EStateM.run
  cases body before <;> rfl

/-- A handler runs on what the failed body left. -/
theorem Makes.tryCatch {body : EStateM ε σ α} {handler : ε → EStateM ε σ α} (hbody : Makes apply allowed body)
    (hhandler : ∀ error, Makes apply allowed (handler error)) : Makes apply allowed (tryCatch body handler) := by
  intro before
  obtain ⟨statements, hallowed, hmiddle⟩ := hbody before
  rw [tryCatch_run]
  cases hbody : body.run before with
  | ok value middle =>
    rw [hbody] at hmiddle
    exact ⟨statements, hallowed, hmiddle⟩
  | error error middle =>
    rw [hbody] at hmiddle
    obtain ⟨later, hlater, hafter⟩ := hhandler error middle
    exact chained hallowed hmiddle hlater hafter

theorem Makes.mono {call : EStateM ε σ α} (hwider : ∀ statement, allowed statement → wider statement)
    (hcall : Makes apply allowed call) : Makes apply wider call := by
  intro before
  obtain ⟨statements, hallowed, hfinal⟩ := hcall before
  exact ⟨statements, fun statement hmem => hwider statement (hallowed statement hmem), hfinal⟩

end Statements

end effects
