import Mathlib.Data.List.Count
import Mathlib.Data.List.Induction
import Mathlib.Data.List.Nodup

/-- Keys below a root, each after the one it hangs under. -/
structure Hanging (κ : Type) where
  root : κ
  rest : List κ
  parent : κ → κ
  nodup : (root :: rest).Nodup
  earlier : ∀ before key after, rest = before ++ key :: after → parent key ∈ root :: before

namespace Hanging

variable {κ : Type} [DecidableEq κ] (tree : Hanging κ)

def children (key : κ) : List κ := tree.rest.filter fun child => tree.parent child = key

/-- The keys under a key, parents first, each with the keys above it, the nearest one first. Nothing
    is shown below a key that is not open. -/
def walk (isOpen : κ → Bool) : Nat → List κ → κ → List (κ × List κ)
  | 0, _, _ => []
  | fuel + 1, above, key =>
    (key, above) :: if isOpen key then (tree.children key).flatMap (walk isOpen fuel (key :: above)) else []

/-- The keys above a key, up to the root. -/
inductive Above : κ → List κ → Prop where
  | root : Above tree.root []
  | step {key : κ} {above : List κ} : key ∈ tree.rest → Above (tree.parent key) above →
      Above key (tree.parent key :: above)

variable {tree} {isOpen : κ → Bool} {fuel : Nat} {above : List κ} {key : κ}

theorem mem_children {child : κ} : child ∈ tree.children key ↔ child ∈ tree.rest ∧ tree.parent child = key := by
  unfold children
  rw [List.mem_filter, decide_eq_true_iff]

theorem above_of_mem_walk (habove : tree.Above key above) {row : κ × List κ}
    (hrow : row ∈ tree.walk isOpen fuel above key) : tree.Above row.1 row.2 := by
  induction fuel generalizing key above with
  | zero => exact absurd hrow List.not_mem_nil
  | succ fuel ih =>
    rw [walk, List.mem_cons] at hrow
    obtain rfl | hrow := hrow
    · exact habove
    · split_ifs at hrow with hopen
      · obtain ⟨child, hchild, hrow⟩ := List.mem_flatMap.mp hrow
        obtain ⟨hrest, rfl⟩ := mem_children.mp hchild
        exact ih (Above.step hrest habove) hrow
      · exact absurd hrow List.not_mem_nil

theorem suffix_of_mem_walk {row : κ × List κ} (hrow : row ∈ tree.walk isOpen fuel above key) : above <:+ row.2 := by
  induction fuel generalizing key above with
  | zero => exact absurd hrow List.not_mem_nil
  | succ fuel ih =>
    rw [walk, List.mem_cons] at hrow
    obtain rfl | hrow := hrow
    · exact List.suffix_refl above
    · split_ifs at hrow with hopen
      · obtain ⟨child, _, hrow⟩ := List.mem_flatMap.mp hrow
        exact (List.suffix_cons key above).trans (ih hrow)
      · exact absurd hrow List.not_mem_nil

/-- A row of a walk is the key it starts at or lies below it. -/
theorem mem_walk_cases {row : κ × List κ} (hrow : row ∈ tree.walk isOpen fuel above key) :
    row = (key, above) ∨ (key :: above) <:+ row.2 := by
  cases fuel with
  | zero => exact absurd hrow List.not_mem_nil
  | succ fuel =>
    rw [walk, List.mem_cons] at hrow
    obtain rfl | hrow := hrow
    · exact Or.inl rfl
    · split_ifs at hrow with hopen
      · obtain ⟨child, _, hrow⟩ := List.mem_flatMap.mp hrow
        exact Or.inr (suffix_of_mem_walk hrow)
      · exact absurd hrow List.not_mem_nil

/-- Keys that hang under one and the same are met in their order. -/
theorem pairwise_walk : (tree.walk isOpen fuel above key).Pairwise fun first second =>
    first.2 = second.2 → List.Sublist [first.1, second.1] tree.rest := by
  induction fuel generalizing above key with
  | zero => exact List.Pairwise.nil
  | succ fuel ih =>
    rw [walk, List.pairwise_cons]
    constructor
    · intro row hrow hsame
      split_ifs at hrow with hopen
      · obtain ⟨child, _, hrow⟩ := List.mem_flatMap.mp hrow
        have hlength := (suffix_of_mem_walk hrow).length_le
        rw [← hsame, List.length_cons] at hlength
        exact absurd hlength (Nat.not_succ_le_self _)
      · exact absurd hrow List.not_mem_nil
    · split_ifs with hopen
      · rw [List.pairwise_flatMap]
        refine ⟨fun _ _ => ih, ?_⟩
        have hsublist : (tree.children key).Sublist tree.rest := List.filter_sublist
        have hnodup : (tree.children key).Nodup := (List.nodup_cons.mp tree.nodup).2.sublist hsublist
        rw [List.pairwise_iff_forall_sublist]
        intro first second hboth one hone two htwo hsame
        have hne : first ≠ second := by
          have hpair := hnodup.sublist hboth
          simpa using hpair
        obtain rfl | hone := mem_walk_cases hone
        · obtain rfl | htwo := mem_walk_cases htwo
          · exact hboth.trans hsublist
          · have hlength := htwo.length_le
            rw [← hsame, List.length_cons] at hlength
            exact absurd hlength (Nat.not_succ_le_self _)
        · obtain rfl | htwo := mem_walk_cases htwo
          · have hlength := hone.length_le
            rw [hsame, List.length_cons] at hlength
            exact absurd hlength (Nat.not_succ_le_self _)
          · rw [hsame] at hone
            have hsuffix := List.IsSuffix.eq_of_length (List.suffix_of_suffix_length_le hone htwo (by simp)) (by simp)
            exact absurd (List.cons.inj hsuffix).1 hne
      · exact List.Pairwise.nil

/-- Closing keys hides just what is below one of them. -/
theorem walk_eq_filter (hopen : ∀ ancestor ∈ above, isOpen ancestor = true) :
    tree.walk isOpen fuel above key = (tree.walk (fun _ => true) fuel above key).filter fun row => row.2.all isOpen := by
  induction fuel generalizing key above with
  | zero => rfl
  | succ fuel ih =>
    rw [walk, walk, if_pos rfl, List.filter_cons, if_pos (show above.all isOpen = true from List.all_eq_true.mpr hopen)]
    congr 1
    rw [List.filter_flatMap]
    split_ifs with hkey
    · refine List.flatMap_congr fun child _ => ih ?_
      rintro ancestor hancestor
      obtain rfl | hancestor := List.mem_cons.mp hancestor
      · exact hkey
      · exact hopen ancestor hancestor
    · symm
      rw [List.flatMap_eq_nil_iff]
      intro child _
      rw [List.filter_eq_nil_iff]
      intro row hrow hall
      have hmem : key ∈ row.2 := (suffix_of_mem_walk hrow).subset List.mem_cons_self
      exact hkey (List.all_eq_true.mp hall key hmem)

section Count

/-- The tree without its last key, which nothing hangs under. -/
def init (tree : Hanging κ) (rest : List κ) (last : κ) (hrest : tree.rest = rest ++ [last]) : Hanging κ where
  root := tree.root
  rest := rest
  parent := tree.parent
  nodup := tree.nodup.sublist (List.Sublist.cons_cons _ (hrest ▸ List.sublist_append_left rest [last]))
  earlier before key after hsplit := tree.earlier before key (after ++ [last]) (by rw [hrest, hsplit, List.append_assoc]; rfl)

variable {rest : List κ} {last : κ}

/-- The keys of a walk with everything open. -/
def visited (tree : Hanging κ) (fuel : Nat) (above : List κ) (key : κ) : List κ :=
  (tree.walk (fun _ => true) fuel above key).map Prod.fst

theorem visited_succ (tree : Hanging κ) (fuel : Nat) (above : List κ) (key : κ) :
    tree.visited (fuel + 1) above key = key :: (tree.children key).flatMap (tree.visited fuel (key :: above)) := by
  unfold visited
  rw [walk, if_pos rfl, List.map_cons, List.map_flatMap]

omit [DecidableEq κ] in
theorem not_mem_init (hrest : tree.rest = rest ++ [last]) : last ∉ tree.root :: rest := by
  have hnodup := tree.nodup
  rw [hrest, ← List.cons_append] at hnodup
  exact List.disjoint_singleton.mp (List.disjoint_of_nodup_append hnodup)

omit [DecidableEq κ] in
theorem parent_mem (hmem : key ∈ tree.rest) : tree.parent key ∈ tree.root :: tree.rest := by
  obtain ⟨before, after, hsplit⟩ := List.append_of_mem hmem
  have hparent := tree.earlier before key after hsplit
  rw [hsplit]
  obtain hroot | hbefore := List.mem_cons.mp hparent
  · exact hroot ▸ List.mem_cons_self
  · exact List.mem_cons_of_mem _ (List.mem_append_left _ hbefore)

omit [DecidableEq κ] in
theorem parent_ne_last (hrest : tree.rest = rest ++ [last]) (hmem : key ∈ tree.rest) : tree.parent key ≠ last := by
  intro hparent
  rw [hrest, List.mem_append, List.mem_singleton] at hmem
  apply not_mem_init hrest
  rw [← hparent]
  obtain hmem | rfl := hmem
  · exact (tree.init rest last hrest).parent_mem hmem
  · exact tree.earlier rest key [] hrest

theorem children_init (hrest : tree.rest = rest ++ [last]) (key : κ) : tree.children key =
    (tree.init rest last hrest).children key ++ if tree.parent last = key then [last] else [] := by
  unfold children init
  rw [hrest, List.filter_append, List.filter_singleton, Bool.cond_decide]

theorem children_last (hrest : tree.rest = rest ++ [last]) : tree.children last = [] := by
  unfold children
  rw [List.filter_eq_nil_iff]
  intro child hchild hparent
  exact parent_ne_last hrest hchild (of_decide_eq_true hparent)

theorem visited_last (hrest : tree.rest = rest ++ [last]) (fuel : Nat) (above : List κ) :
    tree.visited (fuel + 1) above last = [last] := by
  rw [visited_succ, children_last hrest, List.flatMap_nil]

theorem child_ne_last (hrest : tree.rest = rest ++ [last]) {child : κ}
    (hchild : child ∈ (tree.init rest last hrest).children key) : child ≠ last := by
  rintro rfl
  exact not_mem_init hrest (List.mem_cons_of_mem _ (mem_children.mp hchild).1)

/-- Hanging a key under the tree leaves the count of the others. -/
theorem count_visited_ne (hrest : tree.rest = rest ++ [last]) {other : κ} (hother : other ≠ last) (hkey : key ≠ last) :
    (tree.visited fuel above key).count other = ((tree.init rest last hrest).visited fuel above key).count other := by
  induction fuel generalizing above key with
  | zero => rfl
  | succ fuel ih =>
    have hlast : ((if tree.parent last = key then [last] else []).flatMap
        (tree.visited fuel (key :: above))).count other = 0 := by
      split_ifs
      · rw [List.flatMap_singleton]
        cases fuel with
        | zero => rfl
        | succ fuel => rw [visited_last hrest, List.count_singleton, beq_false_of_ne hother.symm]; rfl
      · rfl
    rw [visited_succ, visited_succ, List.count_cons, List.count_cons, children_init hrest, List.flatMap_append,
      List.count_append, hlast, Nat.add_zero, List.count_flatMap, List.count_flatMap]
    congr 2
    refine List.map_congr_left fun child hchild => ?_
    exact ih (child_ne_last hrest hchild)

/-- The key that is hung under the tree is met as often as the one it hangs under. -/
theorem count_visited_last (hrest : tree.rest = rest ++ [last]) (hkey : key ≠ last) :
    (tree.visited (fuel + 1) above key).count last =
      ((tree.init rest last hrest).visited fuel above key).count (tree.parent last) := by
  induction fuel generalizing above key with
  | zero =>
    have hnone : (tree.children key).flatMap (tree.visited 0 (key :: above)) = [] :=
      List.flatMap_eq_nil_iff.mpr fun _ _ => rfl
    rw [visited_succ, hnone, List.count_singleton, beq_false_of_ne hkey]
    rfl
  | succ fuel ih =>
    have hlast : ((if tree.parent last = key then [last] else []).flatMap
        (tree.visited (fuel + 1) (key :: above))).count last = if tree.parent last = key then 1 else 0 := by
      split_ifs
      · rw [List.flatMap_singleton, visited_last hrest, List.count_singleton_self]
      · rfl
    rw [visited_succ, visited_succ, List.count_cons_of_ne hkey, children_init hrest, List.flatMap_append,
      List.count_append, hlast, List.count_cons, List.count_flatMap, List.count_flatMap]
    congr 1
    · congr 1
      refine List.map_congr_left fun child hchild => ?_
      exact ih (child_ne_last hrest hchild)
    · by_cases hparent : tree.parent last = key
      · rw [if_pos hparent, hparent, beq_self_eq_true, if_pos rfl]
      · rw [if_neg hparent, beq_false_of_ne (Ne.symm hparent), if_neg Bool.false_ne_true]

/-- With enough fuel a walk with everything open meets every key once. -/
theorem count_visited (tree : Hanging κ) (hfuel : tree.rest.length < fuel) (key : κ) :
    (tree.visited fuel [] tree.root).count key = if key ∈ tree.root :: tree.rest then 1 else 0 := by
  induction hrest : tree.rest using List.reverseRecOn generalizing tree fuel key with
  | nil =>
    obtain ⟨fuel, rfl⟩ := Nat.exists_eq_add_of_lt hfuel
    have hnone : tree.children tree.root = [] := by rw [children, hrest, List.filter_nil]
    rw [visited_succ, hnone, List.flatMap_nil, List.count_singleton]
    by_cases hkey : key = tree.root
    · rw [if_pos (List.mem_singleton.mpr hkey), hkey, beq_self_eq_true, if_pos rfl]
    · rw [if_neg (List.mem_singleton.not.mpr hkey), beq_false_of_ne (Ne.symm hkey), if_neg Bool.false_ne_true]
  | append_singleton rest last ih =>
    rw [hrest, List.length_append, List.length_singleton] at hfuel
    obtain ⟨fuel, rfl⟩ : ∃ more, fuel = more + 1 := ⟨fuel - 1, by omega⟩
    have hroot : tree.root ≠ last := fun hsame => not_mem_init hrest (hsame ▸ List.mem_cons_self)
    have hcount : ∀ more, rest.length < more → ∀ other, ((tree.init rest last hrest).visited more [] tree.root).count other =
        if other ∈ tree.root :: rest then 1 else 0 := fun more hmore other =>
      ih (tree.init rest last hrest) hmore other rfl
    by_cases hkey : key = last
    · subst hkey
      have hparent : tree.parent key ∈ tree.root :: rest := tree.earlier rest key [] hrest
      rw [count_visited_last hrest hroot, hcount fuel (by omega), if_pos hparent,
        if_pos (List.mem_cons_of_mem _ (List.mem_append_right _ (List.mem_singleton_self key)))]
    · rw [count_visited_ne hrest hkey hroot, hcount (fuel + 1) (by omega)]
      simp only [List.mem_cons, List.mem_append, List.not_mem_nil, hkey, or_false]

end Count

section Shown

omit [DecidableEq κ] in
theorem Above.mem (habove : tree.Above key above) : key ∈ tree.root :: tree.rest := by
  cases habove with
  | root => exact List.mem_cons_self
  | step hrest _ => exact List.mem_cons_of_mem _ hrest

omit [DecidableEq κ] in
theorem Above.of_cons {parent : κ} (habove : tree.Above key (parent :: above)) :
    tree.parent key = parent ∧ tree.Above parent above := by
  cases habove with
  | step _ habove => exact ⟨rfl, habove⟩

omit [DecidableEq κ] in
theorem Above.unique (habove : tree.Above key above) {other : List κ} (hother : tree.Above key other) : above = other := by
  induction habove generalizing other with
  | root =>
    cases hother with
    | root => rfl
    | step hroot _ => exact absurd hroot (List.nodup_cons.mp tree.nodup).1
  | step hrest _ ih =>
    cases hother with
    | root => exact absurd hrest (List.nodup_cons.mp tree.nodup).1
    | step _ hother => rw [ih hother]

theorem visited_nodup (hfuel : tree.rest.length < fuel) : (tree.visited fuel [] tree.root).Nodup := by
  rw [List.nodup_iff_count_le_one]
  intro key
  rw [count_visited tree hfuel]
  split_ifs
  · exact Nat.le_refl 1
  · exact Nat.zero_le 1

/-- A walk from the root shows a key once, and that as long as everything above it is open. -/
theorem mem_walk_iff (hfuel : tree.rest.length < fuel) :
    (key, above) ∈ tree.walk isOpen fuel [] tree.root ↔ tree.Above key above ∧ above.all isOpen = true := by
  rw [walk_eq_filter fun _ hnone => absurd hnone List.not_mem_nil, List.mem_filter]
  constructor
  · rintro ⟨hmem, hopen⟩
    exact ⟨above_of_mem_walk Above.root hmem, hopen⟩
  · rintro ⟨habove, hopen⟩
    refine ⟨?_, hopen⟩
    have hcount := count_visited tree hfuel key
    rw [if_pos habove.mem] at hcount
    have hvisited : key ∈ tree.visited fuel [] tree.root := List.count_pos_iff.mp (by omega)
    obtain ⟨row, hrow, rfl⟩ := List.mem_map.mp hvisited
    rw [habove.unique (above_of_mem_walk Above.root hrow)]
    exact hrow

theorem keys_walk_nodup (hfuel : tree.rest.length < fuel) :
    ((tree.walk isOpen fuel [] tree.root).map Prod.fst).Nodup := by
  rw [walk_eq_filter fun _ hnone => absurd hnone List.not_mem_nil]
  exact (visited_nodup hfuel).sublist (List.filter_sublist.map Prod.fst)

end Shown

section Indent

/-- Where a list of blocks is cut, one of the blocks is. -/
theorem flatMap_cut {α β : Type} {blocks : List α} {block : α → List β} {before after : List β} {row : β}
    (hcut : blocks.flatMap block = before ++ row :: after) :
    ∃ earlier chosen head tail, chosen ∈ blocks ∧ (∀ other ∈ earlier, ∃ place ∈ blocks, other ∈ block place) ∧
      block chosen = head ++ row :: tail ∧ before = earlier ++ head := by
  induction blocks generalizing before with
  | nil => exact absurd hcut.symm (List.append_ne_nil_of_right_ne_nil before (List.cons_ne_nil row after))
  | cons first blocks ih =>
    rw [List.flatMap_cons, List.append_eq_append_iff] at hcut
    obtain ⟨middle, hbefore, hrest⟩ | ⟨middle, hfirst, hrest⟩ := hcut
    · obtain ⟨earlier, chosen, head, tail, hchosen, hearlier, hblock, rfl⟩ := ih hrest
      refine ⟨block first ++ earlier, chosen, head, tail, List.mem_cons_of_mem _ hchosen, ?_, hblock, ?_⟩
      · intro other hother
        obtain hother | hother := List.mem_append.mp hother
        · exact ⟨first, List.mem_cons_self, hother⟩
        · obtain ⟨place, hplace, hmem⟩ := hearlier other hother
          exact ⟨place, List.mem_cons_of_mem _ hplace, hmem⟩
      · rw [hbefore, List.append_assoc]
    · cases middle with
      | nil =>
        obtain ⟨earlier, chosen, head, tail, hchosen, _, hblock, hnil⟩ := ih (show blocks.flatMap block = [] ++ row :: after from hrest.symm)
        obtain ⟨rfl, rfl⟩ := List.append_eq_nil_iff.mp hnil.symm
        refine ⟨block first, chosen, [], tail, List.mem_cons_of_mem _ hchosen, ?_, hblock, ?_⟩
        · exact fun other hother => ⟨first, List.mem_cons_self, hother⟩
        · rw [List.append_nil, hfirst, List.append_nil]
      | cons next middle =>
        obtain ⟨rfl, rfl⟩ := List.cons.inj hrest
        exact ⟨[], first, before, middle, List.mem_cons_self, fun other hother => absurd hother List.not_mem_nil, hfirst, rfl⟩

/-- The last of the rows that lie less deep than so many levels. -/
def enclosing (rows : List (κ × List κ)) (depth : Nat) : Option (κ × List κ) :=
  rows.reverse.find? fun row => decide (row.2.length < depth)

/-- How deep the rows lie shows what they hang under: the row a row hangs under is the last one before it that lies less deep. -/
theorem enclosing_walk {before after : List (κ × List κ)} {row : κ × List κ}
    (hcut : tree.walk isOpen fuel above key = before ++ row :: after) :
    before = [] ∧ row = (key, above) ∨
      ∃ parent ancestors, row.2 = parent :: ancestors ∧ enclosing before row.2.length = some (parent, ancestors) := by
  induction fuel generalizing above key before after with
  | zero => exact absurd hcut.symm (List.append_ne_nil_of_right_ne_nil before (List.cons_ne_nil row after))
  | succ fuel ih =>
    rw [walk] at hcut
    cases before with
    | nil =>
      obtain ⟨hrow, _⟩ := List.cons.inj hcut
      exact Or.inl ⟨rfl, hrow.symm⟩
    | cons first before =>
      right
      rw [List.cons_append] at hcut
      obtain ⟨rfl, hbelow⟩ := List.cons.inj hcut
      split_ifs at hbelow with hopen
      · obtain ⟨earlier, child, head, tail, _, hearlier, hblock, rfl⟩ := flatMap_cut hbelow
        obtain ⟨rfl, rfl⟩ | ⟨parent, ancestors, hrow, hfound⟩ := ih hblock
        · refine ⟨key, above, rfl, ?_⟩
          unfold enclosing
          rw [List.append_nil, List.reverse_cons, List.find?_append]
          have hdeeper : earlier.reverse.find? (fun row => decide (row.2.length < (key :: above).length)) = none := by
            rw [List.find?_eq_none]
            intro other hother
            obtain ⟨place, _, hmem⟩ := hearlier other (List.mem_reverse.mp hother)
            simpa using (suffix_of_mem_walk hmem).length_le
          rw [hdeeper]
          simp
        · refine ⟨parent, ancestors, hrow, ?_⟩
          unfold enclosing at hfound ⊢
          rw [← List.cons_append, List.reverse_append, List.find?_append, hfound]
          rfl
      · exact absurd hbelow.symm (List.append_ne_nil_of_right_ne_nil before (List.cons_ne_nil row after))

end Indent

end Hanging
