import Mathlib.Data.List.Nodup
import Mathlib.Logic.Relation

/-- A queue of jobs on shared subjects: every job in the order in which it came, the jobs not yet
    done, the one in hand with the work list behind it, and the jobs done so far. -/
structure Drain (κ σ : Type) where
  queued : List (κ × List σ)
  live : κ → Prop
  hand : Option κ
  agenda : List κ
  done : List κ

namespace Drain

variable {κ σ : Type}

def keys (drain : Drain κ σ) : List κ := drain.queued.map Prod.fst

def Concerns (drain : Drain κ σ) (key : κ) (subject : σ) : Prop :=
  ∃ subjects, (key, subjects) ∈ drain.queued ∧ subject ∈ subjects

def Shares (drain : Drain κ σ) (first second : κ) : Prop :=
  ∃ subject, drain.Concerns first subject ∧ drain.Concerns second subject

theorem Shares.symm {drain : Drain κ σ} {first second : κ} (hshares : drain.Shares first second) :
    drain.Shares second first := by
  obtain ⟨subject, hfirst, hsecond⟩ := hshares
  exact ⟨subject, hsecond, hfirst⟩

variable [DecidableEq κ]

/-- The place of a job in the queue. -/
def rank (drain : Drain κ σ) (key : κ) : Nat := drain.keys.idxOf key

/-- The jobs of each subject were done in the order in which they came. -/
def InOrder (drain : Drain κ σ) : Prop :=
  drain.done.Pairwise fun first second => drain.Shares first second → drain.rank first < drain.rank second

/-- What one step of the queue and its worker may do. -/
inductive Step (drain : Drain κ σ) : Drain κ σ → Prop where
  | submit (key : κ) (subjects : List σ) (hfresh : key ∉ drain.keys) :
      Step drain { drain with
        queued := drain.queued ++ [(key, subjects)], live := fun other => drain.live other ∨ other = key }
  | drop (live : κ → Prop) (hless : ∀ key, live key → drain.live key) : Step drain { drain with live }
  | start (agenda : List κ) (hidle : drain.hand = none) (hqueued : agenda.Sublist drain.keys)
      (hfair : ∀ first second, second ∈ agenda → drain.live second → drain.live first → drain.Shares first second →
        drain.rank first < drain.rank second → first ∈ agenda) : Step drain { drain with agenda }
  | skip (key : κ) (rest : List κ) (hidle : drain.hand = none) (hagenda : drain.agenda = key :: rest)
      (hdead : ¬ drain.live key) : Step drain { drain with agenda := rest }
  | take (key : κ) (rest : List κ) (hidle : drain.hand = none) (hagenda : drain.agenda = key :: rest)
      (hlive : drain.live key) : Step drain { drain with hand := some key, agenda := rest }
  | finish (key : κ) (hhand : drain.hand = some key) (hdead : ¬ drain.live key) :
      Step drain { drain with hand := none, done := drain.done ++ [key] }
  | putBack (key : κ) (hhand : drain.hand = some key)
      (hbehind : drain.live key → ∀ other ∈ drain.agenda, drain.live other → ¬ drain.Shares key other) :
      Step drain { drain with hand := none }
  | stop : Step drain { drain with hand := none, agenda := [] }

/-- What keeps the order: the work list is sorted, it leaves out no older job of a subject it works on,
    and whatever is still to be done of a subject came after all that is done of it. -/
structure Ordered (drain : Drain κ σ) : Prop where
  keys_nodup : drain.keys.Nodup
  live_queued {key : κ} : drain.live key → key ∈ drain.keys
  done_queued {key : κ} : key ∈ drain.done → key ∈ drain.keys
  working_queued {key : κ} : key ∈ drain.hand.toList ++ drain.agenda → key ∈ drain.keys
  working : (drain.hand.toList ++ drain.agenda).Pairwise fun first second => drain.rank first < drain.rank second
  fair {first second : κ} : second ∈ drain.agenda → drain.live second → drain.live first →
    drain.Shares first second → drain.rank first < drain.rank second → first ∈ drain.hand.toList ++ drain.agenda
  clear {key first : κ} : drain.hand = some key → drain.live first → drain.Shares first key →
    ¬ drain.rank first < drain.rank key
  ahead {key first : κ} : first ∈ drain.done → drain.hand = some key → drain.Shares first key →
    drain.rank first < drain.rank key
  behind {key first : κ} : first ∈ drain.done → drain.live key → drain.Shares first key →
    drain.rank first < drain.rank key
  inOrder : drain.InOrder

variable {drain after : Drain κ σ} {key first second : κ}

theorem rank_lt_of_mem (hmem : key ∈ drain.keys) : drain.rank key < drain.keys.length :=
  List.idxOf_lt_length_of_mem hmem

/-- Two jobs have their places in one order or the other. -/
theorem rank_lt_of_not_lt (hmem : first ∈ drain.keys) (hne : first ≠ second)
    (hnot : ¬ drain.rank second < drain.rank first) : drain.rank first < drain.rank second := by
  have hranks : drain.rank first ≠ drain.rank second := by
    intro heq
    exact hne ((List.idxOf_inj hmem).mp heq)
  omega

theorem pairwise_rank_of_sublist {agenda : List κ} (hnodup : drain.keys.Nodup) (hqueued : agenda.Sublist drain.keys) :
    agenda.Pairwise fun first second => drain.rank first < drain.rank second := by
  refine List.Pairwise.sublist hqueued ?_
  rw [List.pairwise_iff_getElem]
  intro i j hi hj hlt
  unfold rank
  rw [hnodup.idxOf_getElem i hi, hnodup.idxOf_getElem j hj]
  exact hlt

section Submit

variable {subjects : List σ} {live : κ → Prop}

/-- The queue with one more job at its end. -/
private def submitted (drain : Drain κ σ) (key : κ) (subjects : List σ) (live : κ → Prop) : Drain κ σ :=
  { drain with queued := drain.queued ++ [(key, subjects)], live }

omit [DecidableEq κ] in
private theorem keys_submitted : (drain.submitted key subjects live).keys = drain.keys ++ [key] := by
  simp [submitted, keys]

private theorem rank_submitted_of_mem (hmem : first ∈ drain.keys) :
    (drain.submitted key subjects live).rank first = drain.rank first := by
  unfold rank
  rw [keys_submitted, List.idxOf_append_of_mem hmem]

private theorem rank_submitted_self (hfresh : key ∉ drain.keys) :
    (drain.submitted key subjects live).rank key = drain.keys.length := by
  unfold rank
  rw [keys_submitted, List.idxOf_append_of_notMem hfresh, List.idxOf_cons_self, Nat.add_zero]

omit [DecidableEq κ] in
private theorem concerns_of_submitted {subject : σ} (hne : first ≠ key)
    (hconcerns : (drain.submitted key subjects live).Concerns first subject) : drain.Concerns first subject := by
  obtain ⟨held, hmem, hsubject⟩ := hconcerns
  rcases List.mem_append.mp hmem with hold | hnew
  · exact ⟨held, hold, hsubject⟩
  · rw [List.mem_singleton] at hnew
    exact absurd (congrArg Prod.fst hnew) hne

omit [DecidableEq κ] in
private theorem shares_of_submitted (hfirst : first ≠ key) (hsecond : second ≠ key)
    (hshares : (drain.submitted key subjects live).Shares first second) : drain.Shares first second := by
  obtain ⟨subject, hone, hother⟩ := hshares
  exact ⟨subject, concerns_of_submitted hfirst hone, concerns_of_submitted hsecond hother⟩

private theorem Ordered.submitted (hordered : drain.Ordered) (hfresh : key ∉ drain.keys)
    (hlive : ∀ other, live other → drain.live other ∨ other = key) : (drain.submitted key subjects live).Ordered := by
  have hold : ∀ other, other ∈ drain.keys → other ≠ key := by
    rintro other hmem rfl
    exact hfresh hmem
  have hkeep : ∀ other, other ∈ drain.keys → other ∈ (drain.submitted key subjects live).keys := by
    intro other hmem
    rw [keys_submitted]
    exact List.mem_append_left _ hmem
  have hlater : ∀ other, other ∈ drain.keys →
      (drain.submitted key subjects live).rank other < (drain.submitted key subjects live).rank key := by
    intro other hmem
    rw [rank_submitted_of_mem hmem, rank_submitted_self hfresh]
    exact rank_lt_of_mem hmem
  constructor
  · rw [keys_submitted]
    exact hordered.keys_nodup.append (List.nodup_singleton _) (List.disjoint_singleton.mpr hfresh)
  · intro other hother
    rcases hlive other hother with hbefore | rfl
    · exact hkeep other (hordered.live_queued hbefore)
    · rw [keys_submitted]
      exact List.mem_append_right _ (List.mem_singleton_self _)
  · exact fun hdone => hkeep _ (hordered.done_queued hdone)
  · exact fun hworking => hkeep _ (hordered.working_queued hworking)
  · refine hordered.working.imp_of_mem ?_
    intro first second hfirst hsecond hlt
    rw [rank_submitted_of_mem (hordered.working_queued hfirst), rank_submitted_of_mem (hordered.working_queued hsecond)]
    exact hlt
  · intro first second hagenda hsecond hfirst hshares hlt
    have hmem : second ∈ drain.keys := hordered.working_queued (List.mem_append_right _ hagenda)
    have hbefore : drain.live second := (hlive second hsecond).resolve_right (hold second hmem)
    rcases hlive first hfirst with hkept | rfl
    · have hqueued := hordered.live_queued hkept
      rw [rank_submitted_of_mem hqueued, rank_submitted_of_mem hmem] at hlt
      exact hordered.fair hagenda hbefore hkept
        (shares_of_submitted (hold _ hqueued) (hold _ hmem) hshares) hlt
    · have := hlater second hmem
      omega
  · intro held first hhand hfirst hshares
    have hmem : held ∈ drain.keys := hordered.working_queued (by rw [show drain.hand = some held from hhand]; simp)
    rcases hlive first hfirst with hkept | rfl
    · have hqueued := hordered.live_queued hkept
      rw [rank_submitted_of_mem hqueued, rank_submitted_of_mem hmem]
      exact hordered.clear hhand hkept (shares_of_submitted (hold _ hqueued) (hold _ hmem) hshares)
    · have := hlater held hmem
      omega
  · intro held first hdone hhand hshares
    have hmem : held ∈ drain.keys := hordered.working_queued (by rw [show drain.hand = some held from hhand]; simp)
    have hqueued := hordered.done_queued hdone
    rw [rank_submitted_of_mem hqueued, rank_submitted_of_mem hmem]
    exact hordered.ahead hdone hhand (shares_of_submitted (hold _ hqueued) (hold _ hmem) hshares)
  · intro other first hdone hother hshares
    have hqueued := hordered.done_queued hdone
    rcases hlive other hother with hkept | rfl
    · have hmem := hordered.live_queued hkept
      rw [rank_submitted_of_mem hqueued, rank_submitted_of_mem hmem]
      exact hordered.behind hdone hkept (shares_of_submitted (hold _ hqueued) (hold _ hmem) hshares)
    · exact hlater first hqueued
  · refine hordered.inOrder.imp_of_mem ?_
    intro first second hfirst hsecond himp hshares
    have hone := hordered.done_queued hfirst
    have hother := hordered.done_queued hsecond
    rw [rank_submitted_of_mem hone, rank_submitted_of_mem hother]
    exact himp (shares_of_submitted (hold _ hone) (hold _ hother) hshares)

end Submit

/-- Finishing the job in hand puts it behind everything done of its subjects. -/
private theorem Ordered.finish (hordered : drain.Ordered) (hhand : drain.hand = some key) (hdead : ¬ drain.live key) :
    ({ drain with hand := none, done := drain.done ++ [key] } : Drain κ σ).Ordered := by
  have hqueued : key ∈ drain.keys := hordered.working_queued (by rw [hhand]; simp)
  have hrest : ∀ other, other ∈ drain.agenda → other ∈ drain.hand.toList ++ drain.agenda :=
    fun other hmem => List.mem_append_right _ hmem
  constructor
  · exact hordered.keys_nodup
  · exact hordered.live_queued
  · intro other hdone
    rcases List.mem_append.mp hdone with hbefore | hnew
    · exact hordered.done_queued hbefore
    · exact List.mem_singleton.mp hnew ▸ hqueued
  · exact fun hworking => hordered.working_queued (hrest _ hworking)
  · exact (List.pairwise_append.mp hordered.working).2.1
  · intro first second hagenda hsecond hfirst hshares hlt
    have hworking := hordered.fair hagenda hsecond hfirst hshares hlt
    rw [hhand] at hworking
    rcases List.mem_cons.mp hworking with rfl | hbehind
    · exact absurd hfirst hdead
    · exact hbehind
  · intro held first hnone
    cases hnone
  · intro held first _ hnone
    cases hnone
  · intro other first hdone hother hshares
    rcases List.mem_append.mp hdone with hbefore | hnew
    · exact hordered.behind hbefore hother hshares
    · obtain rfl := List.mem_singleton.mp hnew
      have hne : first ≠ other := by
        rintro rfl
        exact hdead hother
      exact rank_lt_of_not_lt hqueued hne (hordered.clear hhand hother hshares.symm)
  · refine List.pairwise_append.mpr ⟨hordered.inOrder, List.pairwise_singleton _ _, ?_⟩
    intro first hfirst second hsecond hshares
    obtain rfl := List.mem_singleton.mp hsecond
    exact hordered.ahead hfirst hhand hshares

/-- The invariant survives every step. -/
theorem Ordered.step (hordered : drain.Ordered) (hstep : drain.Step after) : after.Ordered := by
  cases hstep with
  | submit key subjects hfresh => exact hordered.submitted hfresh fun _ hlive => hlive
  | finish key hhand hdead => exact hordered.finish hhand hdead
  | drop live hless =>
    exact {
      hordered with
      live_queued := fun hlive => hordered.live_queued (hless _ hlive)
      fair := fun hagenda hsecond hfirst => hordered.fair hagenda (hless _ hsecond) (hless _ hfirst)
      clear := fun hhand hfirst => hordered.clear hhand (hless _ hfirst)
      behind := fun hdone hlive => hordered.behind hdone (hless _ hlive) }
  | start agenda hidle hqueued hfair =>
    exact {
      hordered with
      working_queued := by
        intro key hmem
        rw [hidle] at hmem
        exact hqueued.subset hmem
      working := by
        rw [hidle]
        exact pairwise_rank_of_sublist hordered.keys_nodup hqueued
      fair := fun hagenda hsecond hfirst hshares hlt =>
        List.mem_append_right _ (hfair _ _ hagenda hsecond hfirst hshares hlt) }
  | skip key rest hidle hagenda hdead =>
    have hworking := hordered.working
    have hmembers := @hordered.working_queued
    rw [hidle, hagenda] at hworking hmembers
    exact {
      hordered with
      working_queued := by
        intro other hmem
        rw [hidle] at hmem
        exact hmembers (List.mem_cons_of_mem _ hmem)
      working := by
        rw [hidle]
        exact (List.pairwise_cons.mp hworking).2
      fair := by
        intro first second hsecond hlive hfirst hshares hlt
        have hlisted := hordered.fair (hagenda ▸ List.mem_cons_of_mem _ hsecond) hlive hfirst hshares hlt
        rw [hidle, hagenda] at hlisted
        rw [hidle]
        rcases List.mem_cons.mp hlisted with rfl | hrest
        · exact absurd hfirst hdead
        · exact hrest }
  | take key rest hidle hagenda hlive =>
    have hworking := hordered.working
    have hmembers := @hordered.working_queued
    rw [hidle, hagenda] at hworking hmembers
    exact {
      hordered with
      working_queued := hmembers
      working := hworking
      fair := by
        intro first second hsecond hlater hfirst hshares hlt
        have hlisted := hordered.fair (hagenda ▸ List.mem_cons_of_mem _ hsecond) hlater hfirst hshares hlt
        rw [hidle, hagenda] at hlisted
        exact hlisted
      clear := by
        intro held first hhand hfirst hshares hlt
        obtain rfl := Option.some.inj hhand
        have hlisted := hordered.fair (hagenda ▸ List.mem_cons_self) hlive hfirst hshares hlt
        rw [hidle, hagenda] at hlisted
        rcases List.mem_cons.mp hlisted with rfl | hrest
        · exact Nat.lt_irrefl _ hlt
        · have hbehind : drain.rank key < drain.rank first := (List.pairwise_cons.mp hworking).1 _ hrest
          change drain.rank first < drain.rank key at hlt
          omega
      ahead := by
        intro held first hdone hhand hshares
        obtain rfl := Option.some.inj hhand
        exact hordered.behind hdone hlive hshares }
  | putBack key hhand hbehind =>
    have hworking := hordered.working
    have hmembers := @hordered.working_queued
    rw [hhand] at hworking hmembers
    exact {
      hordered with
      working_queued := fun hmem => hmembers (List.mem_cons_of_mem _ hmem)
      working := (List.pairwise_cons.mp hworking).2
      fair := by
        intro first second hagenda hsecond hfirst hshares hlt
        have hlisted := hordered.fair hagenda hsecond hfirst hshares hlt
        rw [hhand] at hlisted
        rcases List.mem_cons.mp hlisted with rfl | hrest
        · exact absurd hshares (hbehind hfirst second hagenda hsecond)
        · exact hrest
      clear := fun hnone => by cases hnone
      ahead := fun _ hnone => by cases hnone }
  | stop =>
    exact {
      hordered with
      working_queued := fun hmem => by cases hmem
      working := List.Pairwise.nil
      fair := fun hagenda => by cases hagenda
      clear := fun hnone => by cases hnone
      ahead := fun _ hnone => by cases hnone }

theorem Ordered.steps (hordered : drain.Ordered) (hsteps : Relation.ReflTransGen Step drain after) : after.Ordered := by
  induction hsteps with
  | refl => exact hordered
  | tail _ hstep ih => exact ih.step hstep

end Drain
