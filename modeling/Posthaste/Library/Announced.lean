import Mathlib.Data.List.Basic
import Mathlib.Tactic.SplitIfs
import Posthaste.Library.Future
import Posthaste.Library.Transition

namespace announced

/-- A transaction that some task made, and the counter at that moment. -/
structure Commit (σ : Type) where
  task : Nat
  before : σ
  after : σ
  clock : Nat

/-- One read of a query: the counter it carries, and the transactions it has seen. -/
structure Answer where
  stamp : Nat
  seen : Nat

/-- A store and its counter, the tasks started so far, each with what is left of it and
    what is run in its place when it is cut off, and the queries under way by their stamps. -/
structure Served (σ α : Type) where
  store : σ
  clock : Nat
  tasks : List (Option (Future σ α × Future σ α))
  stamps : List Nat
  commits : List (Commit σ)
  answers : List Answer

inductive Act (τ : Type) where
  | start (request : τ)
  | poll (task : Nat)
  | cut (task : Nat)
  | finish (task : Nat)
  /-- A query reads the counter. -/
  | stamp
  /-- A query that has read the counter reads the store. -/
  | answer (query : Nat)

variable {σ τ α : Type}

namespace Served

variable (served : Served σ α)

def setTask (task : Nat) (slot : Option (Future σ α × Future σ α)) : Served σ α :=
  { served with tasks := served.tasks.set task slot }

/-- The next step of a task. One that is ready has none. -/
def poll (task : Nat) (rest : Future σ α) : Future σ α → Option (Served σ α)
  | .ready _ => none
  | .read next => some (served.setTask task (some (next served.store, rest)))
  | .commit write next => some { served.setTask task (some (next served.store, rest)) with
      store := write served.store
      commits := served.commits ++ [⟨task, served.store, write served.store, served.clock⟩] }
  | .advance next => some { served.setTask task (some (next (served.clock + 1), rest)) with clock := served.clock + 1 }
  | .observe next => some (served.setTask task (some (next served.clock, rest)))

def step (course cleanup : τ → Future σ α) : Act τ → Option (Served σ α)
  | .start request => some { served with tasks := served.tasks ++ [some (course request, cleanup request)] }
  | .poll task => served.tasks[task]?.join.bind fun slot => served.poll task slot.2 slot.1
  | .cut task => served.tasks[task]?.join.map fun slot => served.setTask task (some (slot.2, slot.2))
  | .finish task =>
    match served.tasks[task]?.join with
    | some (.ready _, _) => some (served.setTask task none)
    | _ => none
  | .stamp => some { served with stamps := served.stamps ++ [served.clock] }
  | .answer query => served.stamps[query]?.map fun stamp =>
      { served with answers := served.answers ++ [⟨stamp, served.commits.length⟩] }

def Fresh : Prop := served.tasks = [] ∧ served.stamps = [] ∧ served.commits = [] ∧ served.answers = []

def Underway (task : Nat) : Prop := served.tasks[task]?.join ≠ none

/-- The counter has gone on since each transaction of the task that changed something. -/
def Told (changes : σ → σ → Prop) (task : Nat) : Prop :=
  ∀ commit ∈ served.commits, commit.task = task → changes commit.before commit.after → commit.clock < served.clock

/-- A task ends well, or with every change of its own told of. -/
def EndsTold (changes : σ → σ → Prop) (good : α → Prop) : Act τ → Prop
  | .finish task => ∀ value rest, served.tasks[task]?.join = some (.ready value, rest) → good value ∨
      served.Told changes task
  | _ => True

/-- Once a task is over, the counter has passed its changes and every answer that lacks one. -/
def NothingHidden (changes : σ → σ → Prop) : Prop :=
  ∀ index commit, served.commits[index]? = some commit → changes commit.before commit.after →
    ¬ served.Underway commit.task → commit.clock < served.clock ∧
      ∀ answer ∈ served.answers, answer.seen ≤ index → answer.stamp < served.clock

end Served

/-- Every interleaving of the tasks' steps, their cuts and the queries. -/
def serving (course cleanup : τ → Future σ α) : TransitionSystem (Served σ α) (Act τ) :=
  .ofFunction Served.Fresh fun served => served.step course cleanup

/-- A task whose good ends owe nothing. -/
def Pays (changes : σ → σ → Prop) (good : α → Prop) (owed : Prop) (future : Future σ α) : Prop :=
  future.Settles changes (fun owed value => good value → ¬ owed) owed

theorem Pays.lessen {changes : σ → σ → Prop} {good : α → Prop} {owed less : Prop} {future : Future σ α}
    (hpays : Pays changes good owed future) (hless : less → owed) : Pays changes good less future :=
  Future.Settles.lessen (fun hless hgood hvalue hless' => hgood hvalue (hless hless')) hless hpays

/-- Stamped before reading, advanced after committing. -/
structure Served.Kept (changes : σ → σ → Prop) (good : α → Prop) (served : Served σ α) : Prop where
  known : ∀ commit ∈ served.commits, commit.task < served.tasks.length
  past : ∀ commit ∈ served.commits, commit.clock ≤ served.clock
  stamped : ∀ stamp ∈ served.stamps, stamp ≤ served.clock
  answered : ∀ answer ∈ served.answers, answer.stamp ≤ served.clock
  /-- An answer that lacks a transaction was stamped before it. -/
  lacking : ∀ answer ∈ served.answers, ∀ index commit, served.commits[index]? = some commit →
    answer.seen ≤ index → answer.stamp ≤ commit.clock
  owing : ∀ task future rest, served.tasks[task]?.join = some (future, rest) →
    Pays changes good (¬ served.Told changes task) future ∧ Pays changes good True rest
  told : ∀ task, ¬ served.Underway task → served.Told changes task

section Kept

variable {changes : σ → σ → Prop} {good : α → Prop} {served after : Served σ α} {task : Nat}
  {future rest : Future σ α}

theorem lt_of_task (htask : served.tasks[task]?.join = some (future, rest)) : task < served.tasks.length := by
  by_contra hout
  rw [List.getElem?_eq_none (Nat.not_lt.1 hout)] at htask
  cases htask

theorem task_setTask {slot : Option (Future σ α × Future σ α)} (hlt : task < served.tasks.length) (other : Nat) :
    (served.setTask task slot).tasks[other]?.join = if other = task then slot else served.tasks[other]?.join := by
  show (served.tasks.set task slot)[other]?.join = _
  rw [List.getElem?_set]
  by_cases hother : task = other
  · rw [if_pos hother, if_pos hother.symm, if_pos (hother ▸ hlt)]
    rfl
  · rw [if_neg hother, if_neg fun hsame => hother hsame.symm]

/-- A task moves on by a step that commits nothing, or ends. -/
theorem Served.Kept.place {slot : Option (Future σ α × Future σ α)} (hkept : served.Kept changes good)
    (hlt : task < served.tasks.length)
    (hslot : ∀ future rest, slot = some (future, rest) →
      Pays changes good (¬ served.Told changes task) future ∧ Pays changes good True rest)
    (hend : slot = none → served.Told changes task) : (served.setTask task slot).Kept changes good where
  known commit hmem := by
    rw [show (served.setTask task slot).tasks.length = served.tasks.length from List.length_set]
    exact hkept.known commit hmem
  past := hkept.past
  stamped := hkept.stamped
  answered := hkept.answered
  lacking := hkept.lacking
  owing other future rest hother := by
    rw [task_setTask hlt] at hother
    split_ifs at hother with hsame
    · subst hsame
      exact hslot future rest hother
    · exact hkept.owing other future rest hother
  told other hover := by
    unfold Served.Underway at hover
    rw [task_setTask hlt] at hover
    split_ifs at hover with hsame
    · subst hsame
      exact hend (not_not.1 hover)
    · exact hkept.told other hover

theorem Served.Kept.start {request : Future σ α × Future σ α} (hkept : served.Kept changes good)
    (hpays : Pays changes good False request.1) (hcleanup : Pays changes good True request.2) :
    { served with tasks := served.tasks ++ [some request] : Served σ α }.Kept changes good where
  known commit hmem := by
    rw [List.length_append]
    exact Nat.lt_add_right 1 (hkept.known commit hmem)
  past := hkept.past
  stamped := hkept.stamped
  answered := hkept.answered
  lacking := hkept.lacking
  owing other future rest hother := by
    obtain hlt | hge := Nat.lt_or_ge other served.tasks.length
    · rw [List.getElem?_append_left hlt] at hother
      exact hkept.owing other future rest hother
    · -- A new task has committed nothing.
      have htold : served.Told changes other := fun commit hmem htask =>
        absurd (hkept.known commit hmem) (Nat.not_lt.2 (htask ▸ hge))
      rw [List.getElem?_append_right hge, List.getElem?_singleton] at hother
      split_ifs at hother
      · cases hother
        exact ⟨hpays.lessen fun hnot => hnot htold, hcleanup⟩
      · cases hother
  told other hover := by
    intro commit hmem htask
    refine hkept.told other (fun hunder => hover ?_) commit hmem htask
    have hlt : other < served.tasks.length := htask ▸ hkept.known commit hmem
    rwa [Served.Underway, List.getElem?_append_left hlt]

/-- After a step of the counter nothing is owed. -/
theorem Served.Kept.told_of_tick (hkept : served.Kept changes good) (task : Nat) :
    { served with clock := served.clock + 1 : Served σ α }.Told changes task :=
  fun commit hmem _ _ => Nat.lt_succ_of_le (hkept.past commit hmem)

theorem Served.Kept.tick (hkept : served.Kept changes good) :
    { served with clock := served.clock + 1 : Served σ α }.Kept changes good where
  known := hkept.known
  past commit hmem := Nat.le_succ_of_le (hkept.past commit hmem)
  stamped stamp hmem := Nat.le_succ_of_le (hkept.stamped stamp hmem)
  answered answer hmem := Nat.le_succ_of_le (hkept.answered answer hmem)
  lacking := hkept.lacking
  owing task future rest htask := by
    obtain ⟨hpays, hcleanup⟩ := hkept.owing task future rest htask
    exact ⟨hpays.lessen fun hnot => absurd (hkept.told_of_tick task) hnot, hcleanup⟩
  told task _ := hkept.told_of_tick task

/-- One more transaction leaves a task told of, unless it is the task's own and changes something. -/
theorem told_of_append {commit : Commit σ} (hcommits : after.commits = served.commits ++ [commit])
    (hclock : after.clock = served.clock) (htold : served.Told changes task)
    (hlast : commit.task = task → ¬ changes commit.before commit.after) : after.Told changes task := by
  intro other hmem htask hchanges
  rw [hcommits] at hmem
  rw [hclock]
  obtain hmem | hmem := List.mem_append.1 hmem
  · exact htold other hmem htask hchanges
  · rw [List.mem_singleton.1 hmem] at htask hchanges
    exact absurd hchanges (hlast htask)

/-- A transaction is made, and its task goes on owing a step for what it changed. -/
theorem Served.Kept.commit {write : σ → σ} {next : σ → Future σ α} (hkept : served.Kept changes good)
    (htask : served.tasks[task]?.join = some (.commit write next, rest)) :
    { served.setTask task (some (next served.store, rest)) with
      store := write served.store
      commits := served.commits ++ [⟨task, served.store, write served.store, served.clock⟩] : Served σ α }.Kept
        changes good := by
  have hlt := lt_of_task htask
  obtain ⟨hpays, hcleanup⟩ := hkept.owing task _ rest htask
  have hnext : Pays changes good (¬ served.Told changes task ∨ changes served.store (write served.store))
      (next served.store) := hpays served.store
  refine ⟨fun commit hmem => ?_, fun commit hmem => ?_, hkept.stamped, hkept.answered,
    fun answer hmem index commit hcommit hseen => ?_, fun other future otherRest hother => ?_, fun other hover => ?_⟩
  · rw [show (served.setTask task _).tasks.length = served.tasks.length from List.length_set]
    obtain hmem | hmem := List.mem_append.1 hmem
    · exact hkept.known commit hmem
    · rw [List.mem_singleton.1 hmem]
      exact hlt
  · obtain hmem | hmem := List.mem_append.1 hmem
    · exact hkept.past commit hmem
    · rw [List.mem_singleton.1 hmem]
      exact Nat.le_refl served.clock
  · obtain hold | hnew := Nat.lt_or_ge index served.commits.length
    · rw [List.getElem?_append_left hold] at hcommit
      exact hkept.lacking answer hmem index commit hcommit hseen
    · rw [List.getElem?_append_right hnew, List.getElem?_singleton] at hcommit
      split_ifs at hcommit
      cases hcommit
      exact hkept.answered answer hmem
  · rw [task_setTask hlt] at hother
    split_ifs at hother with hsame
    · subst hsame
      cases hother
      refine ⟨hnext.lessen fun hnot => ?_, hcleanup⟩
      by_contra hpaid
      obtain ⟨htold, hsame⟩ := not_or.1 hpaid
      exact hnot (told_of_append rfl rfl (not_not.1 htold) fun _ => hsame)
    · obtain ⟨hothers, hrest⟩ := hkept.owing other future otherRest hother
      exact ⟨hothers.lessen fun hnot htold => hnot (told_of_append rfl rfl htold fun htask => absurd htask.symm hsame), hrest⟩
  · unfold Served.Underway at hover
    rw [task_setTask hlt] at hover
    by_cases hsame : other = task
    · rw [if_pos hsame] at hover
      exact absurd (Option.some_ne_none _) hover
    · rw [if_neg hsame] at hover
      exact told_of_append rfl rfl (hkept.told other hover) fun htask => absurd htask.symm hsame

theorem Served.Kept.poll (hkept : served.Kept changes good) (htask : served.tasks[task]?.join = some (future, rest))
    (hstep : served.poll task rest future = some after) : after.Kept changes good := by
  have hlt := lt_of_task htask
  obtain ⟨hpays, hcleanup⟩ := hkept.owing task future rest htask
  have hplace : ∀ {next}, Pays changes good (¬ served.Told changes task) next →
      (served.setTask task (some (next, rest))).Kept changes good := by
    intro next hnext
    refine hkept.place hlt (fun future other hslot => ?_) fun hnone => nomatch hnone
    cases hslot
    exact ⟨hnext, hcleanup⟩
  cases future with
  | ready value => cases hstep
  | read next =>
    cases hstep
    exact hplace (hpays served.store)
  | commit write next =>
    cases hstep
    exact hkept.commit htask
  | advance next =>
    cases hstep
    refine hkept.tick.place hlt (fun future other hslot => ?_) fun hnone => nomatch hnone
    cases hslot
    have hnext : Pays changes good False (next (served.clock + 1)) := hpays (served.clock + 1)
    exact ⟨hnext.lessen fun hnot => hnot (hkept.told_of_tick task), hcleanup⟩
  | observe next =>
    cases hstep
    exact hplace (hpays served.clock)

variable {course cleanup : τ → Future σ α} {act : Act τ}

theorem Served.Kept.step (hpays : ∀ request, Pays changes good False (course request))
    (hcleanup : ∀ request, Pays changes good True (cleanup request)) (hkept : served.Kept changes good)
    (hguard : served.EndsTold changes good act) (hstep : served.step course cleanup act = some after) :
    after.Kept changes good := by
  cases act with
  | start request =>
    cases hstep
    exact hkept.start (hpays request) (hcleanup request)
  | poll task =>
    obtain ⟨⟨future, rest⟩, htask, hpoll⟩ := Option.bind_eq_some_iff.1 hstep
    exact hkept.poll htask hpoll
  | cut task =>
    obtain ⟨⟨future, rest⟩, htask, hcut⟩ := Option.map_eq_some_iff.1 hstep
    subst hcut
    obtain ⟨-, hrest⟩ := hkept.owing task future rest htask
    refine hkept.place (lt_of_task htask) (fun future other hslot => ?_) fun hnone => nomatch hnone
    cases hslot
    exact ⟨hrest.lessen fun _ => trivial, hrest⟩
  | finish task =>
    unfold Served.step at hstep
    dsimp only at hstep
    split at hstep
    · rename_i value rest htask
      cases hstep
      obtain ⟨hready, -⟩ := hkept.owing task _ rest htask
      refine hkept.place (lt_of_task htask) (fun future other hslot => nomatch hslot) fun _ => ?_
      obtain hgood | htold := hguard value rest htask
      · exact not_not.1 (hready hgood)
      · exact htold
    · cases hstep
  | stamp =>
    cases hstep
    refine { hkept with stamped := fun stamp hmem => ?_ }
    obtain hmem | hmem := List.mem_append.1 hmem
    · exact hkept.stamped stamp hmem
    · exact Nat.le_of_eq (List.mem_singleton.1 hmem)
  | answer query =>
    obtain ⟨stamp, hquery, hanswer⟩ := Option.map_eq_some_iff.1 hstep
    subst hanswer
    refine { hkept with answered := fun answer hmem => ?_, lacking := fun answer hmem index commit hcommit hseen => ?_ }
    · obtain hmem | hmem := List.mem_append.1 hmem
      · exact hkept.answered answer hmem
      · rw [List.mem_singleton.1 hmem]
        exact hkept.stamped stamp (List.mem_of_getElem? hquery)
    · obtain hmem | hmem := List.mem_append.1 hmem
      · exact hkept.lacking answer hmem index commit hcommit hseen
      · rw [List.mem_singleton.1 hmem] at hseen
        rw [List.getElem?_eq_none hseen] at hcommit
        cases hcommit

theorem kept_of_fresh (hfresh : served.Fresh) : served.Kept changes good := by
  obtain ⟨htasks, hstamps, hcommits, hanswers⟩ := hfresh
  refine ⟨?_, ?_, ?_, ?_, ?_, ?_, ?_⟩
  · rw [hcommits]
    exact fun _ hmem => absurd hmem List.not_mem_nil
  · rw [hcommits]
    exact fun _ hmem => absurd hmem List.not_mem_nil
  · rw [hstamps]
    exact fun _ hmem => absurd hmem List.not_mem_nil
  · rw [hanswers]
    exact fun _ hmem => absurd hmem List.not_mem_nil
  · rw [hanswers]
    exact fun _ hmem => absurd hmem List.not_mem_nil
  · rw [htasks]
    exact fun _ _ _ hnone => nomatch hnone
  · unfold Served.Told
    rw [hcommits]
    exact fun _ _ _ hmem => absurd hmem List.not_mem_nil

theorem Served.Kept.nothingHidden (hkept : served.Kept changes good) : served.NothingHidden changes := by
  intro index commit hcommit hchanges hover
  have htold := hkept.told commit.task hover commit (List.mem_of_getElem? hcommit) rfl hchanges
  exact ⟨htold, fun answer hmem hseen => Nat.lt_of_le_of_lt (hkept.lacking answer hmem index commit hcommit hseen) htold⟩

/-- In every run whose tasks pay for their good ends and are told of at the others, no
    change stays hidden. -/
theorem nothingHidden_of_reachable (hpays : ∀ request, Pays changes good False (course request))
    (hcleanup : ∀ request, Pays changes good True (cleanup request))
    (hreach : (serving course cleanup).Reachable (fun served act => served.EndsTold changes good act) served) :
    served.NothingHidden changes := by
  have hkept : served.Kept changes good := @TransitionSystem.Reachable.invariant _ _ (serving course cleanup)
    (fun served act => served.EndsTold changes good act) (fun served => served.Kept changes good)
    (fun _ hfresh => kept_of_fresh hfresh)
    (fun _ _ _ hkept hguard hstep => hkept.step hpays hcleanup hguard hstep) served hreach
  exact hkept.nothingHidden

end Kept

end announced
