import Mathlib.Data.List.Basic
import Mathlib.Order.Basic

/-- Every asking entry of a log has an answering entry behind it. -/
def Answered {α : Type} (asks answers : α → Prop) (log : List α) : Prop :=
  ∀ earlier ask later, log = earlier ++ ask :: later → asks ask → ∃ answer ∈ later, answers answer

namespace Answered

variable {α : Type} {asks answers : α → Prop} {log : List α}

theorem nil : Answered asks answers [] := fun _ _ _ hsplit _ => absurd hsplit.symm (by simp)

/-- An answer settles everything asked before it. -/
theorem concat {answer : α} (hanswer : answers answer) (hask : ¬ asks answer) :
    Answered asks answers (log ++ [answer]) := by
  intro earlier ask later hsplit hasks
  obtain rfl | ⟨rest, last, rfl⟩ := List.eq_nil_or_concat later
  · have hsame := (List.append_inj' hsplit rfl).2
    cases hsame
    exact absurd hasks hask
  · rw [List.concat_eq_append, ← List.cons_append, ← List.append_assoc] at hsplit
    have hsame := (List.append_inj' hsplit rfl).2
    cases hsame
    exact ⟨answer, by simp, hanswer⟩

/-- What is asked last has no answer yet. -/
theorem not_concat {ask : α} (hask : asks ask) : ¬ Answered asks answers (log ++ [ask]) := by
  intro hanswered
  obtain ⟨answer, hmem, -⟩ := hanswered log ask [] rfl hask
  exact absurd hmem (List.not_mem_nil)

end Answered

/-- What an asynchronous task has yet to do, over a shared store and a shared counter.
    Between two steps any other task may run. -/
inductive Future (σ α : Type) where
  | ready (value : α)
  | read (next : σ → Future σ α)
  /-- One transaction; the task goes on from the store it found. -/
  | commit (write : σ → σ) (next : σ → Future σ α)
  /-- Step the counter, and go on from the value it then has. -/
  | advance (next : Nat → Future σ α)
  | observe (next : Nat → Future σ α)

namespace Future

variable {σ α β : Type}

def bind : Future σ α → (α → Future σ β) → Future σ β
  | .ready value, after => after value
  | .read next, after => .read fun store => (next store).bind after
  | .commit write next, after => .commit write fun before => (next before).bind after
  | .advance next, after => .advance fun count => (next count).bind after
  | .observe next, after => .observe fun count => (next count).bind after

instance : Monad (Future σ) where
  pure := .ready
  bind := bind

section Settling

variable {changes : σ → σ → Prop} {good : Prop → α → Prop} {owed less : Prop} {first : Future σ α}

/-- Whatever the other tasks do, the task ends well: `good` of its value and of whether
    it then still owes the counter a step for a transaction of its own. -/
def Settles (changes : σ → σ → Prop) (good : Prop → α → Prop) : Prop → Future σ α → Prop
  | owed, .ready value => good owed value
  | owed, .read next => ∀ store, Settles changes good owed (next store)
  | owed, .commit write next => ∀ before, Settles changes good (owed ∨ changes before (write before)) (next before)
  | _, .advance next => ∀ count, Settles changes good False (next count)
  | owed, .observe next => ∀ count, Settles changes good owed (next count)

/-- A task that owes less settles as well. -/
theorem Settles.lessen (hgood : ∀ {owed less : Prop} {value}, (less → owed) → good owed value → good less value)
    (hless : less → owed) (hsettles : Settles changes good owed first) : Settles changes good less first := by
  induction first generalizing owed less with
  | ready value => exact hgood hless hsettles
  | read next ih => exact fun store => ih store hless (hsettles store)
  | commit write next ih => exact fun before => ih before (Or.imp_left hless) (hsettles before)
  | advance next ih => exact hsettles
  | observe next ih => exact fun count => ih count hless (hsettles count)

theorem Settles.imp {better : Prop → α → Prop} (himp : ∀ owed value, good owed value → better owed value)
    (hsettles : Settles changes good owed first) : Settles changes better owed first := by
  induction first generalizing owed with
  | ready value => exact himp owed value hsettles
  | read next ih => exact fun store => ih store (hsettles store)
  | commit write next ih => exact fun before => ih before (hsettles before)
  | advance next ih => exact fun count => ih count (hsettles count)
  | observe next ih => exact fun count => ih count (hsettles count)

theorem settles_of_forall (hgood : ∀ owed value, good owed value) : Settles changes good owed first := by
  induction first generalizing owed with
  | ready value => exact hgood owed value
  | read next ih => exact fun store => ih store
  | commit write next ih => exact fun before => ih before
  | advance next ih => exact fun count => ih count
  | observe next ih => exact fun count => ih count

theorem Settles.bind {last : Prop → β → Prop} {next : α → Future σ β}
    (hfirst : Settles changes (fun owed value => Settles changes last owed (next value)) owed first) :
    Settles changes last owed (first >>= next) := by
  show Settles changes last owed (first.bind next)
  induction first generalizing owed with
  | ready value => exact hfirst
  | read next ih => exact fun store => ih store (hfirst store)
  | commit write next ih => exact fun before => ih before (hfirst before)
  | advance next ih => exact fun count => ih count (hfirst count)
  | observe next ih => exact fun count => ih count (hfirst count)

end Settling

end Future
