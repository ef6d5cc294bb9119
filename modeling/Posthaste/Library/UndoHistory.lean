import Mathlib.Data.List.Nodup
import Mathlib.Tactic.ByContra

/-- What an undoable history sees: a new action, an action taken back, an action taken back done again. -/
inductive HistoryAct (α : Type) where
  | forward (key : α)
  | revert (key : α)
  | reapply (key : α)
  deriving DecidableEq

/-- The actions in force, the latest first, and those taken back, the latest taken back first. -/
structure UndoHistory (α : Type) where
  done : List α
  undone : List α
  deriving DecidableEq

namespace UndoHistory

variable {α : Type} [DecidableEq α]

def empty : UndoHistory α := ⟨[], []⟩

/-- Only the latest action in force may be taken back, and only the latest taken back done again. A new action
    drops what was taken back. -/
def act (history : UndoHistory α) : HistoryAct α → Option (UndoHistory α)
  | .forward key => some ⟨key :: history.done, []⟩
  | .revert key => if history.done.head? = some key then some ⟨history.done.tail, key :: history.undone⟩ else none
  | .reapply key => if history.undone.head? = some key then some ⟨key :: history.done, history.undone.tail⟩ else none

/-- A list of acts in order, from a history on. -/
def replay (history : UndoHistory α) : List (HistoryAct α) → Option (UndoHistory α)
  | [] => some history
  | act :: acts => (history.act act).bind fun after => after.replay acts

theorem replay_append {history : UndoHistory α} {first second : List (HistoryAct α)} :
    history.replay (first ++ second) = (history.replay first).bind fun middle => middle.replay second := by
  induction first generalizing history with
  | nil => rfl
  | cons act acts ih =>
    rw [List.cons_append, replay, replay, Option.bind_assoc]
    exact Option.bind_congr fun after _ => ih

theorem replay_snoc {history middle : UndoHistory α} {acts : List (HistoryAct α)} {act : HistoryAct α}
    (hfirst : history.replay acts = some middle) : history.replay (acts ++ [act]) = middle.act act := by
  rw [replay_append, hfirst, Option.bind_some, replay]
  cases middle.act act <;> rfl

/-- The actions of a list of acts, in order. -/
def forwards : List (HistoryAct α) → List α
  | [] => []
  | .forward key :: acts => key :: forwards acts
  | _ :: acts => forwards acts

omit [DecidableEq α] in
theorem forwards_append {first second : List (HistoryAct α)} :
    forwards (first ++ second) = forwards first ++ forwards second := by
  induction first with
  | nil => rfl
  | cons act acts ih => cases act <;> simp [forwards, ih]

omit [DecidableEq α] in
theorem mem_forwards {acts : List (HistoryAct α)} {key : α} : key ∈ forwards acts ↔ .forward key ∈ acts := by
  induction acts with
  | nil => simp [forwards]
  | cons act acts ih => cases act <;> simp [forwards, ih]

theorem act_revert {history after : UndoHistory α} {key : α} (hact : history.act (.revert key) = some after) :
    history.done = key :: after.done ∧ after.undone = key :: history.undone := by
  obtain ⟨done, undone⟩ := history
  cases done with
  | nil => simp [act] at hact
  | cons first done =>
    simp only [act, List.head?_cons, Option.some.injEq, List.tail_cons] at hact
    split_ifs at hact with hkey
    subst hkey
    obtain rfl := Option.some.inj hact
    exact ⟨rfl, rfl⟩

theorem act_reapply {history after : UndoHistory α} {key : α} (hact : history.act (.reapply key) = some after) :
    history.undone = key :: after.undone ∧ after.done = key :: history.done := by
  obtain ⟨done, undone⟩ := history
  cases undone with
  | nil => simp [act] at hact
  | cons first undone =>
    simp only [act, List.head?_cons, Option.some.injEq, List.tail_cons] at hact
    split_ifs at hact with hkey
    subst hkey
    obtain rfl := Option.some.inj hact
    exact ⟨rfl, rfl⟩

/-- No action stands twice, and none in force is also taken back. -/
def Separate (history : UndoHistory α) : Prop := (history.done ++ history.undone).Nodup

theorem Separate.act {history after : UndoHistory α} {act : HistoryAct α} (hseparate : history.Separate)
    (hact : history.act act = some after) (hfresh : ∀ key, act = .forward key → key ∉ history.done) :
    after.Separate := by
  cases act with
  | forward key =>
    obtain rfl := Option.some.inj hact
    rw [Separate, List.append_nil]
    exact List.nodup_cons.mpr ⟨hfresh key rfl, (List.nodup_append.mp hseparate).1⟩
  | revert key =>
    obtain ⟨hdone, hundone⟩ := act_revert hact
    rw [Separate, hdone] at hseparate
    rw [Separate, hundone]
    exact (List.nodup_middle).mpr hseparate
  | reapply key =>
    obtain ⟨hundone, hdone⟩ := act_reapply hact
    rw [Separate, hundone] at hseparate
    rw [Separate, hdone]
    exact List.nodup_middle.mp hseparate

/-- What is held was a new action once. -/
theorem held_of_act {history after : UndoHistory α} {act : HistoryAct α} (hact : history.act act = some after) {key : α}
    (hheld : key ∈ after.done ++ after.undone) : key ∈ history.done ++ history.undone ∨ act = .forward key := by
  cases act with
  | forward other =>
    obtain rfl := Option.some.inj hact
    rw [List.append_nil] at hheld
    rcases List.mem_cons.mp hheld with rfl | hheld
    · exact Or.inr rfl
    · exact Or.inl (List.mem_append_left _ hheld)
  | revert other =>
    obtain ⟨hdone, hundone⟩ := act_revert hact
    refine Or.inl ?_
    rw [hundone] at hheld
    rw [hdone]
    simpa [or_comm, or_assoc, or_left_comm] using hheld
  | reapply other =>
    obtain ⟨hundone, hdone⟩ := act_reapply hact
    refine Or.inl ?_
    rw [hdone] at hheld
    rw [hundone]
    simpa [or_comm, or_assoc, or_left_comm] using hheld

/-- Acts whose new actions are all different keep the history separate. -/
theorem replay_separate {history after : UndoHistory α} {acts : List (HistoryAct α)} (hseparate : history.Separate)
    (hreplay : history.replay acts = some after) (hnew : (forwards acts).Nodup)
    (hfresh : ∀ key ∈ forwards acts, key ∉ history.done ++ history.undone) : after.Separate := by
  induction acts generalizing history with
  | nil =>
    obtain rfl := Option.some.inj hreplay
    exact hseparate
  | cons act acts ih =>
    obtain ⟨middle, hact, hrest⟩ := Option.bind_eq_some_iff.mp hreplay
    have hmiddle : middle.Separate := by
      refine hseparate.act hact fun key hkey hdone => ?_
      subst hkey
      exact hfresh key List.mem_cons_self (List.mem_append_left _ hdone)
    have hrestNew : (forwards acts).Nodup := by
      cases act with
      | forward key => exact (List.nodup_cons.mp hnew).2
      | revert key => exact hnew
      | reapply key => exact hnew
    refine ih hmiddle hrest hrestNew fun key hkey hheld => ?_
    rcases held_of_act hact hheld with hheld | rfl
    · refine hfresh key ?_ hheld
      cases act with
      | forward other => exact List.mem_cons_of_mem _ hkey
      | revert other => exact hkey
      | reapply other => exact hkey
    · exact (List.nodup_cons.mp hnew).1 hkey

/-- An action that is not in force is not taken back before it is done again. -/
theorem not_reverted_of_not_done {history after : UndoHistory α} {acts : List (HistoryAct α)} {key : α}
    (hdone : key ∉ history.done) (hnew : .forward key ∉ acts) (hagain : .reapply key ∉ acts)
    (hreplay : history.replay acts = some after) : .revert key ∉ acts := by
  induction acts generalizing history with
  | nil => exact List.not_mem_nil
  | cons act acts ih =>
    obtain ⟨middle, hact, hrest⟩ := Option.bind_eq_some_iff.mp hreplay
    rw [List.mem_cons, not_or] at hnew hagain ⊢
    have hmiddle : key ∉ middle.done := by
      cases act with
      | forward other =>
        obtain rfl := Option.some.inj hact
        rw [List.mem_cons, not_or]
        refine ⟨?_, hdone⟩
        rintro rfl
        exact hnew.1 rfl
      | revert other =>
        obtain ⟨hheld, -⟩ := act_revert hact
        rw [hheld] at hdone
        exact fun hmem => hdone (List.mem_cons_of_mem _ hmem)
      | reapply other =>
        obtain ⟨-, hheld⟩ := act_reapply hact
        rw [hheld, List.mem_cons, not_or]
        refine ⟨?_, hdone⟩
        rintro rfl
        exact hagain.1 rfl
    refine ⟨?_, ih hmiddle hnew.2 hagain.2 hrest⟩
    rintro rfl
    obtain ⟨hheld, -⟩ := act_revert hact
    rw [hheld] at hdone
    exact hdone List.mem_cons_self

/-- An action that a history does not hold is neither taken back nor done again. -/
theorem not_touched_of_not_held {history after : UndoHistory α} {acts : List (HistoryAct α)} {key : α}
    (hheld : key ∉ history.done ++ history.undone) (hnew : .forward key ∉ acts)
    (hreplay : history.replay acts = some after) : .reapply key ∉ acts := by
  induction acts generalizing history with
  | nil => exact List.not_mem_nil
  | cons act acts ih =>
    obtain ⟨middle, hact, hrest⟩ := Option.bind_eq_some_iff.mp hreplay
    rw [List.mem_cons, not_or] at hnew ⊢
    have hmiddle : key ∉ middle.done ++ middle.undone := by
      intro hmem
      rcases held_of_act hact hmem with hmem | rfl
      · exact hheld hmem
      · exact hnew.1 rfl
    refine ⟨?_, ih hmiddle hnew.2 hrest⟩
    rintro rfl
    obtain ⟨hundone, -⟩ := act_reapply hact
    rw [hundone] at hheld
    exact hheld (List.mem_append_right _ List.mem_cons_self)

theorem separate_of_replay {middle : UndoHistory α} {first second : List (HistoryAct α)}
    (hnew : (forwards (first ++ second)).Nodup) (hfirst : (empty : UndoHistory α).replay first = some middle) :
    middle.Separate := by
  rw [forwards_append] at hnew
  have hempty : (empty : UndoHistory α).Separate := List.nodup_nil
  exact replay_separate hempty hfirst (List.nodup_append.mp hnew).1 fun _ _ => List.not_mem_nil

/-- What a history holds was a new action. -/
theorem forward_of_held {history after : UndoHistory α} {acts : List (HistoryAct α)} {key : α}
    (hreplay : history.replay acts = some after) (hheld : key ∈ after.done ++ after.undone) :
    key ∈ history.done ++ history.undone ∨ key ∈ forwards acts := by
  induction acts generalizing history with
  | nil =>
    obtain rfl := Option.some.inj hreplay
    exact Or.inl hheld
  | cons act acts ih =>
    obtain ⟨middle, hact, hrest⟩ := Option.bind_eq_some_iff.mp hreplay
    rw [mem_forwards, List.mem_cons]
    rcases ih hrest with hmiddle | hforward
    · rcases held_of_act hact hmiddle with hhistory | rfl
      · exact Or.inl hhistory
      · exact Or.inr (Or.inl rfl)
    · exact Or.inr (Or.inr (mem_forwards.mp hforward))

/-- When no action comes twice, none is taken back twice without being done again in between. -/
theorem reapplied_between {last : UndoHistory α} {before between after : List (HistoryAct α)} {key : α}
    (hnew : (forwards (before ++ .revert key :: (between ++ .revert key :: after))).Nodup)
    (hreplay : (empty : UndoHistory α).replay (before ++ .revert key :: (between ++ .revert key :: after)) = some last) :
    .reapply key ∈ between := by
  rw [replay_append] at hreplay
  obtain ⟨first, hbefore, hreplay⟩ := Option.bind_eq_some_iff.mp hreplay
  obtain ⟨second, hrevert, hreplay⟩ := Option.bind_eq_some_iff.mp hreplay
  obtain ⟨hdone, -⟩ := act_revert hrevert
  have hseparate : first.Separate := separate_of_replay hnew hbefore
  have hheld : key ∈ forwards before := by
    rcases forward_of_held hbefore (List.mem_append_left _ (hdone ▸ List.mem_cons_self)) with hempty | hforward
    · cases hempty
    · exact hforward
  have hgone : key ∉ second.done := by
    rw [Separate, hdone, List.cons_append, List.nodup_cons] at hseparate
    exact fun hmem => hseparate.1 (List.mem_append_left _ hmem)
  have honce : .forward key ∉ between ++ .revert key :: after := by
    rw [forwards_append] at hnew
    intro hmem
    exact (List.disjoint_of_nodup_append hnew) hheld (mem_forwards.mpr (List.mem_cons_of_mem _ hmem))
  by_contra hnone
  rw [replay_append] at hreplay
  obtain ⟨third, hbetween, hreplay⟩ := Option.bind_eq_some_iff.mp hreplay
  obtain ⟨fourth, hagain, -⟩ := Option.bind_eq_some_iff.mp hreplay
  have hacts : second.replay (between ++ [.revert key]) = some fourth := (replay_snoc hbetween).trans hagain
  have hno : .forward key ∉ between ++ [HistoryAct.revert key] := by
    intro hmem
    refine honce (List.mem_append.mpr ?_)
    rcases List.mem_append.mp hmem with hmem | hmem
    · exact Or.inl hmem
    · exact absurd (List.mem_singleton.mp hmem) (by simp)
  have hnotAgain : .reapply key ∉ between ++ [HistoryAct.revert key] := by
    rw [List.mem_append, not_or]
    exact ⟨hnone, by simp⟩
  exact not_reverted_of_not_done hgone hno hnotAgain hacts (List.mem_append_right _ List.mem_cons_self)

/-- When no action comes twice, one that a new action drops is never taken back or done again. -/
theorem dropped_untouched {middle last : UndoHistory α} {before after : List (HistoryAct α)} {key other : α}
    (hnew : (forwards (before ++ .forward other :: after)).Nodup)
    (hbefore : (empty : UndoHistory α).replay before = some middle) (hdropped : key ∈ middle.undone)
    (hreplay : (empty : UndoHistory α).replay (before ++ .forward other :: after) = some last) :
    .revert key ∉ after ∧ .reapply key ∉ after := by
  rw [replay_append, hbefore, Option.bind_some] at hreplay
  obtain ⟨next, hforward, hafter⟩ := Option.bind_eq_some_iff.mp hreplay
  obtain rfl := Option.some.inj hforward
  have hheld : key ∈ forwards before := by
    rcases forward_of_held hbefore (List.mem_append_right _ hdropped) with hempty | hforward
    · cases hempty
    · exact hforward
  have hseparate : middle.Separate := separate_of_replay hnew hbefore
  rw [forwards_append] at hnew
  have hapart : key ∉ forwards (.forward other :: after) := List.disjoint_of_nodup_append hnew hheld
  rw [mem_forwards, List.mem_cons, not_or] at hapart
  have hgone : key ∉ (other :: middle.done) ++ [] := by
    rw [List.append_nil, List.mem_cons, not_or]
    refine ⟨?_, fun hmem => (List.disjoint_of_nodup_append hseparate) hmem hdropped⟩
    rintro rfl
    exact hapart.1 rfl
  have hagain := not_touched_of_not_held hgone hapart.2 hafter
  rw [List.append_nil] at hgone
  exact ⟨not_reverted_of_not_done hgone hapart.2 hagain hafter, hagain⟩

end UndoHistory
