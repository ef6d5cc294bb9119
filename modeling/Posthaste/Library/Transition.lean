import Mathlib.Data.List.Basic
import Mathlib.Order.Basic

/-- A labelled transition system: where runs start and what one action can do. -/
structure TransitionSystem (σ α : Type) where
  start : σ → Prop
  step : σ → α → σ → Prop

namespace TransitionSystem

variable {σ α : Type} {system : TransitionSystem σ α} {guard strong weak : σ → α → Prop}

/-- The states that runs reach when every action they take meets the guard. -/
inductive Reachable (system : TransitionSystem σ α) (guard : σ → α → Prop) : σ → Prop where
  | start {state : σ} (hstart : system.start state) : Reachable system guard state
  | next {state after : σ} {action : α} (hreach : Reachable system guard state) (hguard : guard state action)
      (hstep : system.step state action after) : Reachable system guard after

/-- The guard every action meets. -/
def unguarded : σ → α → Prop := fun _ _ => True

/-- What holds at every start and survives every guarded step holds in every state reached. -/
theorem Reachable.invariant {property : σ → Prop} (hstart : ∀ state, system.start state → property state)
    (hstep : ∀ state action after, property state → guard state action → system.step state action after →
      property after) {state : σ} (hreach : Reachable system guard state) : property state := by
  induction hreach with
  | start hbegin => exact hstart _ hbegin
  | next _ hguard hnext ih => exact hstep _ _ _ ih hguard hnext

/-- A step may use what is already known of every reached state. -/
theorem Reachable.invariant_of {known property : σ → Prop}
    (hknown : ∀ state, Reachable system guard state → known state)
    (hstart : ∀ state, system.start state → property state)
    (hstep : ∀ state action after, known state → property state → guard state action →
      system.step state action after → property after) {state : σ} (hreach : Reachable system guard state) :
    property state := by
  induction hreach with
  | start hbegin => exact hstart _ hbegin
  | next hreach hguard hnext ih => exact hstep _ _ _ (hknown _ hreach) ih hguard hnext

theorem Reachable.mono (hguard : ∀ state action, strong state action → weak state action) {state : σ}
    (hreach : Reachable system strong state) : Reachable system weak state := by
  induction hreach with
  | start hbegin => exact .start hbegin
  | next _ hmeets hnext ih => exact .next ih (hguard _ _ hmeets) hnext

theorem Reachable.forget {state : σ} (hreach : Reachable system guard state) : Reachable system unguarded state :=
  hreach.mono fun _ _ _ => trivial

/-- The system of an executable step function. -/
def ofFunction (start : σ → Prop) (next : σ → α → Option σ) : TransitionSystem σ α where
  start := start
  step state action after := next state action = some after

/-- Take a list of actions, each with its guard checked. -/
def runActions (next : σ → α → Option σ) (guard : σ → α → Bool) : σ → List α → Option σ
  | state, [] => some state
  | state, action :: rest =>
    if guard state action then (next state action).bind fun after => runActions next guard after rest else none

theorem runActions_append {next : σ → α → Option σ} {check : σ → α → Bool} {state : σ} (first second : List α) :
    runActions next check state (first ++ second) =
      (runActions next check state first).bind fun middle => runActions next check middle second := by
  induction first generalizing state with
  | nil => rfl
  | cons action rest ih =>
    rw [List.cons_append, runActions, runActions]
    split_ifs with hmeets
    · rw [Option.bind_assoc]
      exact Option.bind_congr fun after _ => ih
    · rfl

theorem reachable_of_runActions {start : σ → Prop} {next : σ → α → Option σ} {check : σ → α → Bool}
    (hcheck : ∀ state action, check state action = true → guard state action) {state after : σ} {actions : List α}
    (hreach : Reachable (ofFunction start next) guard state) (hrun : runActions next check state actions = some after) :
    Reachable (ofFunction start next) guard after := by
  induction actions generalizing state with
  | nil =>
    cases hrun
    exact hreach
  | cons action rest ih =>
    unfold runActions at hrun
    split_ifs at hrun with hmeets
    obtain ⟨middle, hstep, hrest⟩ := Option.bind_eq_some_iff.mp hrun
    exact ih (.next hreach (hcheck _ _ hmeets) hstep) hrest

end TransitionSystem

/-- Work through a list of items, one step for each. -/
def Through {ι σ : Type} (step : ι → σ → σ → Prop) : List ι → σ → σ → Prop
  | [], before, after => after = before
  | item :: rest, before, after => ∃ middle, step item before middle ∧ Through step rest middle after

/-- When two runs may be compared outside a marked part: a marked item's step
    cannot be told from outside, and an unmarked item's steps keep the likeness. -/
structure Unwinding {ι σ : Type} (step : ι → σ → σ → Prop) (marked : ι → Prop) (ready : List ι → σ → Prop)
    (alike : σ → σ → Prop) : Prop where
  symm : ∀ {left right}, alike left right → alike right left
  advance : ∀ {item rest before}, ready (item :: rest) before → ∃ after, step item before after
  ready_step : ∀ {item rest before after}, ready (item :: rest) before → step item before after → ready rest after
  hidden : ∀ {item rest left right after}, marked item → ready (item :: rest) left → alike left right →
    step item left after → alike after right
  joint : ∀ {item first second left right leftAfter rightAfter}, ¬ marked item → ready (item :: first) left →
    ready (item :: second) right → alike left right → step item left leftAfter → step item right rightAfter →
    alike leftAfter rightAfter

namespace Unwinding

variable {ι σ : Type} {step : ι → σ → σ → Prop} {marked : ι → Prop} {ready : List ι → σ → Prop}
  {alike : σ → σ → Prop}

theorem through_append {first second : List ι} {before after : σ} :
    Through step (first ++ second) before after ↔
      ∃ middle, Through step first before middle ∧ Through step second middle after := by
  induction first generalizing before with
  | nil => simp [Through]
  | cons item rest ih =>
    simp only [List.cons_append, Through, ih]
    constructor
    · rintro ⟨next, hstep, middle, hrest, hsecond⟩
      exact ⟨middle, ⟨next, hstep, hrest⟩, hsecond⟩
    · rintro ⟨middle, ⟨next, hstep, hrest⟩, hsecond⟩
      exact ⟨next, hstep, middle, hrest, hsecond⟩

/-- A run through marked items alone is not seen from outside. -/
theorem hidden_run (unwinding : Unwinding step marked ready alike) {items rest : List ι} {left right : σ}
    (hmarked : ∀ item ∈ items, marked item) (hready : ready (items ++ rest) left) (halike : alike left right) :
    ∃ after, Through step items left after ∧ ready rest after ∧ alike after right := by
  induction items generalizing left with
  | nil => exact ⟨left, rfl, hready, halike⟩
  | cons item later ih =>
    obtain ⟨middle, hstep⟩ := unwinding.advance hready
    have hnext := unwinding.hidden (hmarked item List.mem_cons_self) hready halike hstep
    obtain ⟨after, hrun, hrest, hafter⟩ :=
      ih (fun other hmem => hmarked other (List.mem_cons_of_mem _ hmem)) (unwinding.ready_step hready hstep) hnext
    exact ⟨after, ⟨middle, hstep, hrun⟩, hrest, hafter⟩

/-- Runs whose unmarked items agree both complete, and end alike. -/
theorem run [DecidablePred marked] (unwinding : Unwinding step marked ready alike) {first second : List ι}
    {left right : σ} (hitems : first.filter (¬ marked ·) = second.filter (¬ marked ·)) (hleft : ready first left)
    (hright : ready second right) (halike : alike left right) :
    ∃ leftAfter rightAfter, Through step first left leftAfter ∧ Through step second right rightAfter ∧
      alike leftAfter rightAfter := by
  induction first generalizing second left right with
  | nil =>
    have hmarked : ∀ item ∈ second, marked item := by
      rw [List.filter_nil] at hitems
      simpa using List.filter_eq_nil_iff.mp hitems.symm
    rw [← List.append_nil second] at hright
    obtain ⟨after, hrun, _, hafter⟩ := unwinding.hidden_run hmarked hright (unwinding.symm halike)
    exact ⟨left, after, rfl, hrun, unwinding.symm hafter⟩
  | cons item rest ih =>
    obtain ⟨middle, hstep⟩ := unwinding.advance hleft
    by_cases hitem : marked item
    · rw [List.filter_cons_of_neg (by simpa using hitem)] at hitems
      have hnext := unwinding.hidden hitem hleft halike hstep
      obtain ⟨leftAfter, rightAfter, hrun, hother, hafter⟩ :=
        ih hitems (unwinding.ready_step hleft hstep) hright hnext
      exact ⟨leftAfter, rightAfter, ⟨middle, hstep, hrun⟩, hother, hafter⟩
    · rw [List.filter_cons_of_pos (by simpa using hitem)] at hitems
      obtain ⟨before, later, rfl, hbefore, _, hlater⟩ := List.filter_eq_cons_iff.mp hitems.symm
      -- the second run first clears the marked items that stand before the shared one
      obtain ⟨cleared, hclear, hready, hcleared⟩ :=
        unwinding.hidden_run (fun other hmem => by simpa using hbefore other hmem) hright (unwinding.symm halike)
      obtain ⟨next, hnextStep⟩ := unwinding.advance hready
      have hjoint := unwinding.joint hitem hleft hready (unwinding.symm hcleared) hstep hnextStep
      obtain ⟨leftAfter, rightAfter, hrun, hother, hafter⟩ :=
        ih hlater.symm (unwinding.ready_step hleft hstep) (unwinding.ready_step hready hnextStep) hjoint
      exact ⟨leftAfter, rightAfter, ⟨middle, hstep, hrun⟩,
        through_append.mpr ⟨cleared, hclear, next, hnextStep, hother⟩, hafter⟩

end Unwinding
