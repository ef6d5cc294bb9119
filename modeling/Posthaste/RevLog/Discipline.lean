import Mathlib.Data.List.Induction
import Posthaste.Library.Effects
import Posthaste.RevLog.Calls

namespace posthaste.undo_redo

section Predecessor

variable {steps below above : List RevLogStep} {step : RevLogStep}

theorem maxBySeq_snoc (steps : List RevLogStep) (step : RevLogStep) : maxBySeq (steps ++ [step]) = some step ∨
    ∃ best, maxBySeq steps = some best ∧ step.seq < best.seq ∧ maxBySeq (steps ++ [step]) = some best := by
  rw [maxBySeq, List.foldl_append, ← maxBySeq]
  cases hbest : maxBySeq steps with
  | none => exact Or.inl rfl
  | some best =>
    simp only [List.foldl_cons, List.foldl_nil]
    by_cases hle : best.seq ≤ step.seq
    · rw [if_pos hle]
      exact Or.inl rfl
    · rw [if_neg hle]
      exact Or.inr ⟨best, rfl, by omega, rfl⟩

theorem maxBySeq_mem {best : RevLogStep} (hbest : maxBySeq steps = some best) : best ∈ steps := by
  induction steps using List.reverseRecOn with
  | nil => cases hbest
  | append_singleton steps step ih =>
    rcases maxBySeq_snoc steps step with hlast | ⟨other, hother, -, hsame⟩
    · rw [hlast] at hbest
      obtain rfl := Option.some.inj hbest
      exact List.mem_append_right _ List.mem_cons_self
    · rw [hsame] at hbest
      exact List.mem_append_left _ (ih (hother.trans hbest))

/-- Over ascending steps the greatest is the last. -/
theorem maxBySeq_eq_getLast? (hascending : steps.Pairwise (·.seq < ·.seq)) : maxBySeq steps = steps.getLast? := by
  induction steps using List.reverseRecOn with
  | nil => rfl
  | append_singleton steps step ih =>
    rw [List.getLast?_append, List.getLast?_singleton, Option.some_or]
    rcases maxBySeq_snoc steps step with hlast | ⟨best, hbest, hlt, -⟩
    · exact hlast
    · have hbelow := (List.pairwise_append.mp hascending).2.2 best (maxBySeq_mem hbest) step List.mem_cons_self
      omega

/-- The steps before one of ascending steps are those of a lesser seq. -/
theorem filter_before (hascending : (below ++ step :: above).Pairwise (·.seq < ·.seq)) :
    (below ++ step :: above).filter (·.seq < step.seq) = below := by
  obtain ⟨-, habove, hcross⟩ := List.pairwise_append.mp hascending
  rw [List.filter_append]
  have hkept : below.filter (·.seq < step.seq) = below := by
    refine List.filter_eq_self.mpr fun other hother => ?_
    exact decide_eq_true (hcross other hother step List.mem_cons_self)
  have hnone : (step :: above).filter (·.seq < step.seq) = [] := by
    refine List.filter_eq_nil_iff.mpr fun other hother => ?_
    rw [decide_eq_true_iff]
    rcases List.mem_cons.mp hother with rfl | hother
    · omega
    · have hlt := List.rel_of_pairwise_cons habove hother
      omega
  rw [hkept, hnone, List.append_nil]

end Predecessor

/-- Where the cursor stands in the log: below it the applied steps, above it the redo tail. -/
structure Located (stepIds : List String) (below : List String) (cursor : RevCursor) : Prop where
  split : stepIds = below ++ cursor.cursor_step_id.toList ++ cursor.redo_tail
  bottom : cursor.cursor_step_id = none → below = []

theorem WellKept.steps_ascending {rows : List RevLogRow} (hkept : WellKept rows) :
    (rows.map row_to_step).Pairwise (·.seq < ·.seq) := by
  rw [List.pairwise_map]
  refine hkept.ascending.imp_of_mem fun {first second} hfirst hsecond hlt => ?_
  simp only [row_to_step, Nat.mod_eq_of_lt (hkept.small first hfirst), Nat.mod_eq_of_lt (hkept.small second hsecond)]
  exact hlt

section Plans

variable {decode : String → Option StepDiff} {rows : List RevLogRow} {below : List String} {cursor : RevCursor}
  {plan : Plan}

theorem find_step_id {snapshot : RevLogSnapshot} {step_id : String} {step : RevLogStep}
    (hfind : find_step snapshot step_id = .ok step) : step ∈ snapshot.steps ∧ step.step_id = step_id := by
  rw [find_step] at hfind
  split at hfind
  case h_1 found hfound =>
    obtain rfl := Except.ok.inj hfind
    exact ⟨List.mem_of_find?_eq_some hfound, by simpa using List.find?_some hfound⟩
  case h_2 => cases hfind

/-- The plan of an undo: the step at the cursor, then the cursor one down. -/
theorem undo_plan (hkept : WellKept rows) (hlocated : Located (rows.map (·.step_id)) below cursor)
    (hplan : undo decode ⟨rows.map row_to_step, cursor⟩ = .ok plan) :
    plan.kind = .undo ∧ cursor.cursor_step_id = some plan.step.step_id ∧
      plan.cursor = ⟨below.getLast?, plan.step.step_id :: cursor.redo_tail⟩ := by
  simp only [undo] at hplan
  split at hplan
  case h_1 => cases hplan
  case h_2 cursor_step_id hcursor =>
    obtain ⟨step, hstep, hplan⟩ := effects.except_bind_eq_ok_iff.mp hplan
    obtain ⟨diff, -, hok⟩ := effects.except_bind_eq_ok_iff.mp hplan
    obtain rfl := Except.ok.inj hok
    obtain ⟨hmem, rfl⟩ := find_step_id hstep
    refine ⟨rfl, hcursor, ?_⟩
    have hsplit := hlocated.split
    rw [hcursor, Option.toList_some, List.append_assoc, List.singleton_append] at hsplit
    obtain ⟨before, after, rfl, hbefore, hafter⟩ := List.map_eq_append_iff.mp hsplit
    obtain ⟨row, above, rfl, hrow, -⟩ := List.map_eq_cons_iff.mp hafter
    have hsame : step = row_to_step row := by
      obtain ⟨other, hother, rfl⟩ := List.mem_map.mp hmem
      have hrowMem : row ∈ before ++ row :: above := List.mem_append_right _ List.mem_cons_self
      rw [List.inj_on_of_nodup_map hkept.unique hother hrowMem hrow.symm]
    have hascending := hkept.steps_ascending
    rw [List.map_append, List.map_cons, ← hsame] at hascending
    rw [List.map_append, List.map_cons, ← hsame, filter_before hascending,
      maxBySeq_eq_getLast? (List.pairwise_append.mp hascending).1, ← hbefore, List.getLast?_map, List.getLast?_map,
      Option.map_map]
    rfl

/-- The plan of a redo: the head of the redo tail, then the cursor one up. -/
theorem redo_plan {steps : List RevLogStep} (hplan : redo decode ⟨steps, cursor⟩ = .ok plan) :
    plan.kind = .redo ∧ ∃ rest, cursor.redo_tail = plan.step.step_id :: rest ∧
      plan.cursor = ⟨some plan.step.step_id, rest⟩ := by
  simp only [redo] at hplan
  split at hplan
  case h_1 => cases hplan
  case h_2 next_step_id redo_tail htail =>
    obtain ⟨step, hstep, hplan⟩ := effects.except_bind_eq_ok_iff.mp hplan
    obtain ⟨diff, -, hok⟩ := effects.except_bind_eq_ok_iff.mp hplan
    obtain rfl := Except.ok.inj hok
    obtain ⟨-, rfl⟩ := find_step_id hstep
    exact ⟨rfl, redo_tail, htail, rfl⟩

end Plans

end posthaste.undo_redo
