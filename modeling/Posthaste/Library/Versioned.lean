import Mathlib.Tactic.ByContra

/-- What a collection holds under each key, moment by moment. -/
abbrev Versioned (κ ρ : Type) := Nat → κ → Option ρ

namespace Versioned

variable {κ ρ : Type} (content : Versioned κ ρ) (first last : Nat) (key : κ)

/-- Some step between the two moments changes what the key holds. -/
def Changed : Prop := ∃ moment, moment < last ∧ first ≤ moment ∧ content moment key ≠ content (moment + 1) key

instance [DecidableEq ρ] : Decidable (content.Changed first last key) := by
  unfold Changed
  infer_instance

/-- A change that comparing the two moments alone cannot overlook: a key that is
    empty at both of them is left out. -/
def Reported : Prop := content.Changed first last key ∧ (content first key ≠ none ∨ content last key ≠ none)

variable {content first last key}

theorem eq_of_unchanged (hsame : ¬ content.Changed first last key) {moment : Nat} (hfirst : first ≤ moment)
    (hlast : moment ≤ last) : content first key = content moment key := by
  induction hfirst with
  | refl => rfl
  | @step moment hle ih =>
    rw [ih (by omega)]
    by_contra hne
    exact hsame ⟨moment, by omega, hle, hne⟩

/-- An unreported key holds the same at both moments. -/
theorem eq_of_not_reported (hnot : ¬ content.Reported first last key) (hle : first ≤ last) :
    content first key = content last key := by
  by_cases hchanged : content.Changed first last key
  · by_contra hne
    refine hnot ⟨hchanged, ?_⟩
    by_contra hnone
    rw [not_or, not_not, not_not] at hnone
    exact hne (hnone.1.trans hnone.2.symm)
  · exact eq_of_unchanged hchanged hle (Nat.le_refl last)

/-- A key that still holds something is reported when it changed, and only then. -/
theorem not_changed_of_not_reported (hnot : ¬ content.Reported first last key) (hsome : content last key ≠ none) :
    ¬ content.Changed first last key :=
  fun hchanged => hnot ⟨hchanged, Or.inr hsome⟩

end Versioned
