import Mathlib.Algebra.Order.BigOperators.Group.List
import Mathlib.Algebra.Order.Ring.Nat
import Mathlib.Data.List.Basic
import Mathlib.Data.List.Nodup
import Mathlib.Data.List.Perm.Subperm
import Mathlib.Data.List.TakeWhile

namespace List

variable {α : Type}

theorem flatten_toChunks_go (size : Nat) (values : List α) (current : Array α) (complete : Array (List α)) :
    (toChunks.go size values current complete).flatten = complete.toList.flatten ++ current.toList ++ values := by
  induction values generalizing current complete with
  | nil => simp [toChunks.go]
  | cons value rest ih =>
    rw [toChunks.go]
    split_ifs
    · rw [ih]
      simp
    · rw [ih]
      simp

/-- Chunking loses nothing and keeps the order. -/
theorem flatten_toChunks (size : Nat) (values : List α) : (values.toChunks size).flatten = values := by
  cases values with
  | nil => cases size <;> rfl
  | cons value rest =>
    cases size with
    | zero => simp [toChunks]
    | succ size =>
      have hentry : toChunks (size + 1) (value :: rest) = toChunks.go (size + 1) rest #[value] #[] :=
        toChunks.eq_3 (size + 1) value rest (Nat.succ_ne_zero size)
      rw [hentry, flatten_toChunks_go]
      simp

theorem ne_nil_of_mem_toChunks_go {size : Nat} {values : List α} {current : Array α} {complete : Array (List α)}
    (hcurrent : current.toList ≠ []) (hcomplete : ∀ chunk ∈ complete.toList, chunk ≠ []) :
    ∀ chunk ∈ toChunks.go size values current complete, chunk ≠ [] := by
  induction values generalizing current complete with
  | nil =>
    intro chunk hchunk
    rw [toChunks.go, Array.toList_push] at hchunk
    obtain hdone | hlast := mem_append.mp hchunk
    · exact hcomplete chunk hdone
    · rw [mem_singleton.mp hlast]
      exact hcurrent
  | cons value rest ih =>
    rw [toChunks.go]
    split_ifs
    · apply ih
      · simp
      · intro chunk hchunk
        rw [Array.toList_push] at hchunk
        obtain hdone | hlast := mem_append.mp hchunk
        · exact hcomplete chunk hdone
        · rw [mem_singleton.mp hlast]
          exact hcurrent
    · exact ih (by simp) hcomplete

theorem ne_nil_of_mem_toChunks {size : Nat} {values chunk : List α} (hmem : chunk ∈ values.toChunks (size + 1)) :
    chunk ≠ [] := by
  cases values with
  | nil => exact absurd hmem not_mem_nil
  | cons value rest =>
    have hentry : toChunks (size + 1) (value :: rest) = toChunks.go (size + 1) rest #[value] #[] :=
      toChunks.eq_3 (size + 1) value rest (Nat.succ_ne_zero size)
    rw [hentry] at hmem
    exact ne_nil_of_mem_toChunks_go (by simp) (by simp) chunk hmem

end List

section Patience

variable {κ : Type}

/-- How often at most a counter can still be found below the threshold over so many tries, wrapping around
    at 2³² as it may. -/
def chances (threshold count tries : Nat) : Nat :=
  if count + 1 < threshold then threshold - 1 - count else if 4294967295 - count < tries then threshold else 0

theorem chances_le (threshold count tries : Nat) : chances threshold count tries ≤ threshold := by
  unfold chances
  split_ifs <;> omega

variable {threshold tries : Nat} {count : UInt32}

theorem chances_kept : chances threshold count.toNat tries ≤ chances threshold count.toNat (tries + 1) := by
  unfold chances
  split_ifs <;> omega

theorem chances_counted (hfew : tries + 1 + threshold < 4294967296) :
    chances threshold (count + 1).toNat tries ≤ chances threshold count.toNat (tries + 1) := by
  have hbound := count.toNat_lt
  have hnext : (count + 1).toNat = (count.toNat + 1) % 4294967296 := UInt32.toNat_add count 1
  unfold chances
  rw [hnext]
  split_ifs <;> omega

/-- A try below the threshold uses up a chance. -/
theorem chances_halted (hfew : tries + 1 + threshold < 4294967296) (hbelow : (count + 1).toNat < threshold) :
    chances threshold (count + 1).toNat tries + 1 ≤ chances threshold count.toNat (tries + 1) := by
  have hbound := count.toNat_lt
  have hnext : (count + 1).toNat = (count.toNat + 1) % 4294967296 := UInt32.toNat_add count 1
  unfold chances
  rw [hnext] at hbelow ⊢
  split_ifs <;> omega

/-- Where every pass halts, there are chances enough for all of them. -/
theorem tries_le_chances {keys : List κ} {counts : Nat → κ → UInt32}
    (hcounts : ∀ pass, ∀ key ∈ keys, counts (pass + 1) key = counts pass key ∨ counts (pass + 1) key = counts pass key + 1)
    (hhalts : ∀ pass, ∃ key ∈ keys, (counts pass key + 1).toNat < threshold ∧
      counts (pass + 1) key = counts pass key + 1) (hfew : tries + threshold < 4294967296) (pass : Nat) :
    tries ≤ (keys.map fun key => chances threshold (counts pass key).toNat tries).sum := by
  induction tries generalizing pass with
  | zero => exact Nat.zero_le _
  | succ tries ih =>
    have hless : (keys.map fun key => chances threshold (counts (pass + 1) key).toNat tries).sum <
        (keys.map fun key => chances threshold (counts pass key).toNat (tries + 1)).sum := by
      refine List.sum_lt_sum _ _ (fun key hkey => ?_) ?_
      · rcases hcounts pass key hkey with hsame | hmore
        · rw [hsame]
          exact chances_kept
        · rw [hmore]
          exact chances_counted hfew
      · obtain ⟨key, hkey, hbelow, hmore⟩ := hhalts pass
        refine ⟨key, hkey, ?_⟩
        rw [hmore]
        exact chances_halted hfew hbelow
    have hrest := ih (by omega) (pass + 1)
    omega

/-- Counters that halt a pass below a threshold only, and count when they do, do not halt every pass. -/
theorem not_always_halted {keys : List κ} {counts : Nat → κ → UInt32}
    (hkeys : threshold * keys.length + 1 + threshold < 4294967296)
    (hcounts : ∀ pass, ∀ key ∈ keys, counts (pass + 1) key = counts pass key ∨ counts (pass + 1) key = counts pass key + 1) :
    ¬ ∀ pass, ∃ key ∈ keys, (counts pass key + 1).toNat < threshold ∧ counts (pass + 1) key = counts pass key + 1 := by
  intro hhalts
  have hmany := tries_le_chances hcounts hhalts hkeys 0
  have hfew : (keys.map fun key => chances threshold (counts 0 key).toNat (threshold * keys.length + 1)).sum ≤
      keys.length * threshold := by
    have hsum := List.sum_le_card_nsmul
      (keys.map fun key => chances threshold (counts 0 key).toNat (threshold * keys.length + 1)) threshold (by
        intro chance hchance
        obtain ⟨key, _, rfl⟩ := List.mem_map.mp hchance
        exact chances_le _ _ _)
    rw [List.length_map] at hsum
    exact hsum
  have hcomm : keys.length * threshold = threshold * keys.length := Nat.mul_comm _ _
  omega

end Patience

/-- A queue drained in passes. A pass takes the first ready entries, up to the limit,
    and serves them in order; it may halt before it served them all, but no queue
    that stands still is halted for ever. -/
structure BatchedQueue (κ : Type) where
  limit : Nat
  ready : κ → Bool
  queue : Nat → List κ
  served : Nat → κ → Prop
  halted : Nat → Prop
  nodup : (queue 0).Nodup
  shrinks : ∀ pass, (queue (pass + 1)).Sublist (queue pass)
  within : ∀ pass key, served pass key → key ∈ ((queue pass).filter ready).take limit
  reached : ∀ pass, queue (pass + 1) = queue pass → ¬ halted pass →
    ∀ key ∈ ((queue pass).filter ready).take limit, served pass key
  patient : ∀ pass, (∀ later, pass ≤ later → queue later = queue pass) → ∃ later, pass ≤ later ∧ ¬ halted later

namespace BatchedQueue

variable {κ : Type} [DecidableEq κ] {run : BatchedQueue κ} {failing : κ → Prop} {key : κ}

/-- The entries ahead of one. -/
def ahead (queue : List κ) (key : κ) : List κ := queue.takeWhile (· ≠ key)

/-- As many entries ahead as fill a batch are ready and fail for ever. -/
def Blocked (run : BatchedQueue κ) (failing : κ → Prop) (key : κ) : Prop :=
  ∃ blocking : List κ, blocking.Sublist (ahead (run.queue 0) key) ∧ blocking.length = run.limit ∧
    ∀ other ∈ blocking, run.ready other = true ∧ failing other

theorem ahead_append {before after : List κ} (hbefore : key ∉ before) : ahead (before ++ key :: after) key = before := by
  unfold ahead
  rw [List.takeWhile_append_of_pos fun other hother => by simpa using fun hsame : other = key => hbefore (hsame ▸ hother),
    List.takeWhile_cons_of_neg (by simp), List.append_nil]

/-- What stands ahead of an entry in a sublist of a queue stood ahead of it in the queue, and nothing of that is lost. -/
theorem split_sublist {queue whole : List κ} (hsub : queue.Sublist whole) (hnodup : whole.Nodup) (hkey : key ∈ queue) :
    ∃ before after, queue = before ++ key :: after ∧ key ∉ before ∧ before.Sublist (ahead whole key) ∧
      ∀ other ∈ ahead whole key, other ∈ queue → other ∈ before := by
  obtain ⟨first, rest, rfl⟩ := List.append_of_mem (hsub.subset hkey)
  obtain ⟨_, hlast, hapart⟩ := List.nodup_append.mp hnodup
  have hfirst : key ∉ first := fun hmem => hapart key hmem key List.mem_cons_self rfl
  obtain ⟨before, tail, rfl, hbefore, htail⟩ := List.sublist_append_iff.mp hsub
  have hin : key ∈ tail := (List.mem_append.mp hkey).resolve_left fun hmem => hfirst (hbefore.subset hmem)
  rcases List.sublist_cons_iff.mp htail with hlate | ⟨after, rfl, hafter⟩
  · exact absurd (hlate.subset hin) (List.nodup_cons.mp hlast).1
  · refine ⟨before, after, rfl, fun hmem => hfirst (hbefore.subset hmem), ?_, ?_⟩
    · rw [ahead_append hfirst]
      exact hbefore
    · rw [ahead_append hfirst]
      intro other hother hmem
      refine (List.mem_append.mp hmem).resolve_right fun hright => ?_
      have hlater : other ∈ key :: rest := by
        rcases List.mem_cons.mp hright with hsame | hmem
        · exact hsame ▸ List.mem_cons_self
        · exact List.mem_cons_of_mem _ (hafter.subset hmem)
      exact hapart other hother other hlater rfl

omit [DecidableEq κ] in
theorem sublist_start (pass : Nat) : (run.queue pass).Sublist (run.queue 0) := by
  induction pass with
  | zero => exact List.Sublist.refl _
  | succ pass ih => exact (run.shrinks pass).trans ih

/-- A blocked entry never gets into a batch. -/
theorem Blocked.not_served (hblocked : run.Blocked failing key)
    (hfailing : ∀ other ∈ run.queue 0, failing other → ∀ pass, other ∈ run.queue pass) (pass : Nat) :
    ¬ run.served pass key := by
  intro hserved
  have hbatch := run.within pass key hserved
  have hkey : key ∈ run.queue pass := (List.mem_filter.mp (List.mem_of_mem_take hbatch)).1
  obtain ⟨blocking, hblocking, hlength, hstuck⟩ := hblocked
  obtain ⟨before, after, hsplit, hnotin, hbefore, hkept⟩ := split_sublist (sublist_start pass) run.nodup hkey
  have hsubset : blocking ⊆ before.filter run.ready := by
    intro other hother
    have hahead := hblocking.subset hother
    have hstart : other ∈ run.queue 0 := (List.takeWhile_sublist _).subset hahead
    obtain ⟨hready, hfails⟩ := hstuck other hother
    exact List.mem_filter.mpr ⟨hkept other hahead (hfailing other hstart hfails pass), hready⟩
  have hnodup : blocking.Nodup := run.nodup.sublist (hblocking.trans (List.takeWhile_sublist _))
  have hfull : run.limit ≤ (before.filter run.ready).length := by
    rw [← hlength]
    exact (hnodup.subperm hsubset).length_le
  rw [hsplit, List.filter_append, List.take_append_of_le_length hfull] at hbatch
  exact hnotin (List.mem_filter.mp (List.mem_of_mem_take hbatch)).1

omit [DecidableEq κ] in
/-- A queue that only shrinks stands still from some pass on. -/
theorem settles (pass : Nat) : ∃ still, pass ≤ still ∧ ∀ later, still ≤ later → run.queue later = run.queue still := by
  induction hsize : (run.queue pass).length using Nat.strong_induction_on generalizing pass with
  | h size ih =>
    by_cases hstill : ∀ later, pass ≤ later → run.queue later = run.queue pass
    · exact ⟨pass, Nat.le_refl _, hstill⟩
    · obtain ⟨later, hlater⟩ := Classical.not_forall.mp hstill
      obtain ⟨hle, hchanged⟩ := Classical.not_imp.mp hlater
      have hsub : (run.queue later).Sublist (run.queue pass) := by
        clear hlater hchanged
        induction later, hle using Nat.le_induction with
        | base => exact List.Sublist.refl _
        | succ middle _ hmiddle => exact (run.shrinks middle).trans hmiddle
      have hless : (run.queue later).length < size := by
        rcases Nat.lt_or_ge (run.queue later).length (run.queue pass).length with hless | hge
        · omega
        · exact absurd (hsub.eq_of_length_le hge) hchanged
      obtain ⟨still, hfrom, hrest⟩ := ih _ hless later rfl
      exact ⟨still, Nat.le_trans hle hfrom, hrest⟩

omit [DecidableEq κ] in
/-- Finitely many entries recover by one pass. -/
theorem recovered_from {keys : List κ} {gone : Nat → κ → Prop} (hrecovers : ∀ other ∈ keys, ∃ start, ∀ pass, start ≤ pass →
    gone pass other) : ∃ start, ∀ other ∈ keys, ∀ pass, start ≤ pass → gone pass other := by
  induction keys with
  | nil => exact ⟨0, fun other hother => by cases hother⟩
  | cons first rest ih =>
    obtain ⟨begin, hfirst⟩ := hrecovers first List.mem_cons_self
    obtain ⟨start, hrest⟩ := ih fun other hother => hrecovers other (List.mem_cons_of_mem _ hother)
    refine ⟨max begin start, fun other hother pass hpass => ?_⟩
    rcases List.mem_cons.mp hother with rfl | hmem
    · exact hfirst pass (by omega)
    · exact hrest other hmem pass (by omega)

/-- An entry that is ready and not blocked is served in the end. -/
theorem served_of_not_blocked (hkey : key ∈ run.queue 0) (hready : run.ready key = true)
    (hstays : ∀ pass, key ∈ run.queue pass → ¬ run.served pass key → key ∈ run.queue (pass + 1))
    (hrecovers : ∀ other ∈ run.queue 0, ¬ failing other →
      ∃ start, ∀ pass, start ≤ pass → run.served pass other → other ∉ run.queue (pass + 1))
    (hfree : ¬ run.Blocked failing key) : ∃ pass, run.served pass key := by
  by_contra hnever
  have hwaits : ∀ pass, key ∈ run.queue pass := by
    intro pass
    induction pass with
    | zero => exact hkey
    | succ pass ih => exact hstays pass ih fun hserved => hnever ⟨pass, hserved⟩
  obtain ⟨start, hstart⟩ := @recovered_from κ (run.queue 0)
    (fun pass other => ¬ failing other → run.served pass other → other ∉ run.queue (pass + 1)) (by
      intro other hother
      by_cases hfails : failing other
      · exact ⟨0, fun _ _ hrecovers => absurd hfails hrecovers⟩
      · obtain ⟨start, hstart⟩ := hrecovers other hother hfails
        exact ⟨start, fun pass hpass _ => hstart pass hpass⟩)
  obtain ⟨still, hle, hstill⟩ := run.settles start
  obtain ⟨pass, hpass, hgoing⟩ := run.patient still hstill
  have hsame : run.queue (pass + 1) = run.queue pass :=
    (hstill (pass + 1) (by omega)).trans (hstill pass hpass).symm
  have hall := run.reached pass hsame hgoing
  obtain ⟨before, after, hsplit, hnotin, hbefore, _⟩ := split_sublist (sublist_start pass) run.nodup (hwaits pass)
  have hmissed : key ∉ ((run.queue pass).filter run.ready).take run.limit := fun hbatch => hnever ⟨pass, hall key hbatch⟩
  rw [hsplit, List.filter_append, List.filter_cons, if_pos hready] at hmissed
  -- a batch without the entry is filled by entries ahead of it
  have hfull : run.limit ≤ (before.filter run.ready).length := by
    by_contra hroom
    refine hmissed ?_
    rw [List.take_append]
    refine List.mem_append_right _ ?_
    obtain ⟨room, hroom⟩ : ∃ room, run.limit - (before.filter run.ready).length = room + 1 :=
      ⟨run.limit - (before.filter run.ready).length - 1, by omega⟩
    rw [hroom, List.take_succ_cons]
    exact List.mem_cons_self
  refine hfree ⟨(before.filter run.ready).take run.limit, ?_, ?_, fun other hother => ?_⟩
  · exact ((List.take_sublist _ _).trans List.filter_sublist).trans hbefore
  · rw [List.length_take, Nat.min_eq_left hfull]
  · obtain ⟨hmem, hotherReady⟩ := List.mem_filter.mp (List.mem_of_mem_take hother)
    refine ⟨hotherReady, Classical.byContradiction fun hrecovers => ?_⟩
    have hbatch : other ∈ ((run.queue pass).filter run.ready).take run.limit := by
      rw [hsplit, List.filter_append, List.take_append_of_le_length hfull]
      exact hother
    have hqueued : other ∈ run.queue pass := (List.mem_filter.mp (List.mem_of_mem_take hbatch)).1
    have hgone := hstart other ((sublist_start pass).subset hqueued) pass (by omega) hrecovers (hall other hbatch)
    rw [hsame] at hgone
    exact hgone hqueued

end BatchedQueue
