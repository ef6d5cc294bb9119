import Mathlib.Data.List.Sort
import Mathlib.Order.RelClasses

/-- One page of a listing and where the next one starts. -/
structure Page (σ γ : Type) where
  items : List σ
  next_cursor : Option γ

namespace seek

variable {ρ σ γ ε : Type} (item : ρ → σ) (cursorOf : ρ → γ)

/-- The first rows of what the query found, with a cursor at the last of them when some are left. -/
def cut (limit : Nat) (found : List ρ) : Page σ γ where
  items := (found.take limit).map item
  next_cursor := if limit < found.length then (found.take limit).getLast?.map cursorOf else none

/-- Requests pages until one carries no cursor. `none` is out of fuel. -/
def follow (page : Option γ → Except ε (Page σ γ)) : Nat → Option γ → Option (Except ε (List σ))
  | 0, _ => none
  | fuel + 1, cursor =>
    match page cursor with
    | .error error => some (.error error)
    | .ok ⟨items, none⟩ => some (.ok items)
    | .ok ⟨items, some next⟩ => (follow page fuel (some next)).map (·.map (items ++ ·))

/-- Requests the rest of a window of so many rows, each time of the next snapshot, until it is full or a
    page carries no cursor or no row. `none` is out of snapshots. -/
def window {τ : Type} (fetch : τ → Nat → Option γ → Except ε (Page σ γ)) (size : Nat) :
    List τ → List σ → Option γ → Option (Except ε (Page σ γ))
  | [], _, _ => none
  | snapshot :: later, rows, cursor =>
    match fetch snapshot (size - rows.length) cursor with
    | .error error => some (.error error)
    | .ok page =>
      let rows := rows ++ page.items
      if page.items.isEmpty then some (.ok ⟨rows, page.next_cursor⟩)
      else if page.next_cursor.isSome ∧ rows.length < size then window fetch size later rows page.next_cursor
      else some (.ok ⟨rows, page.next_cursor⟩)

variable {item cursorOf}

theorem cut_of_le {limit : Nat} {found : List ρ} (hle : found.length ≤ limit) :
    cut item cursorOf limit found = ⟨found.map item, none⟩ := by
  rw [cut, List.take_of_length_le hle, if_neg (by omega)]

theorem cut_of_lt {limit : Nat} {found : List ρ} (hpositive : 0 < limit) (hlt : limit < found.length) :
    ∃ shown last rest, found = (shown ++ [last]) ++ rest ∧ rest ≠ [] ∧
      cut item cursorOf limit found = ⟨(shown ++ [last]).map item, some (cursorOf last)⟩ := by
  have hne : found.take limit ≠ [] := by
    intro hnil
    have hlength := congrArg List.length hnil
    rw [List.length_take, List.length_nil] at hlength
    omega
  have hshown := List.dropLast_append_getLast hne
  refine ⟨(found.take limit).dropLast, (found.take limit).getLast hne, found.drop limit, ?_, ?_, ?_⟩
  · rw [hshown, List.take_append_drop]
  · intro hnil
    have hlength := congrArg List.length hnil
    rw [List.length_drop, List.length_nil] at hlength
    omega
  · rw [cut, if_pos hlt, hshown, List.getLast?_eq_getLast_of_ne_nil hne, Option.map_some]

/-- One row beyond the page is enough to tell whether more are left. -/
theorem cut_take {limit : Nat} {found : List ρ} :
    cut item cursorOf limit (found.take (limit + 1)) = cut item cursorOf limit found := by
  have htake : (found.take (limit + 1)).take limit = found.take limit := by
    rw [List.take_take, Nat.min_eq_left (by omega)]
  have hmore : limit < (found.take (limit + 1)).length ↔ limit < found.length := by
    rw [List.length_take]
    omega
  simp only [cut, htake, hmore]

/-- Truncating only when there is more cuts the same page. -/
theorem truncate_eq_cut {limit : Nat} {found : List ρ} :
    (⟨(if limit < found.length then found.take limit else found).map item,
      if limit < found.length then (if limit < found.length then found.take limit else found).getLast?.map cursorOf
      else none⟩ : Page σ γ) = cut item cursorOf limit found := by
  by_cases hmore : limit < found.length
  · simp only [if_pos hmore, cut]
  · rw [cut_of_le (by omega)]
    simp only [if_neg hmore]

theorem cut_map {τ : Type} {pair : τ → ρ} {limit : Nat} {found : List τ} :
    cut item cursorOf limit (found.map pair) = cut (item ∘ pair) (cursorOf ∘ pair) limit found := by
  simp only [cut, List.length_map, ← List.map_take, List.map_map, List.getLast?_map, Option.map_map]

theorem cut_encoded {δ : Type} {encode : γ → δ} {limit : Nat} {found : List ρ} :
    (⟨(cut item cursorOf limit found).items, (cut item cursorOf limit found).next_cursor.map encode⟩ : Page σ δ) =
      cut item (encode ∘ cursorOf) limit found := by
  by_cases hmore : limit < found.length
  · simp only [cut, if_pos hmore, Option.map_map]
  · simp only [cut, if_neg hmore, Option.map_none]

theorem eq_of_map_eq {first second : List ρ} (hinj : ∀ a ∈ first, ∀ b ∈ second, item a = item b → a = b)
    (hmap : first.map item = second.map item) : first = second := by
  induction first generalizing second with
  | nil => exact (List.map_eq_nil_iff.mp hmap.symm).symm
  | cons a first ih =>
    cases second with
    | nil => cases hmap
    | cons b second =>
      rw [List.map_cons, List.map_cons, List.cons.injEq] at hmap
      obtain rfl := hinj a List.mem_cons_self b List.mem_cons_self hmap.1
      have hrest := ih (fun c hc d hd => hinj c (List.mem_cons_of_mem _ hc) d (List.mem_cons_of_mem _ hd)) hmap.2
      rw [hrest]

section Order

variable {before : ρ → ρ → Prop} [DecidableRel before]

/-- Among rows in strict order, those after a shown one are the ones not yet shown. -/
theorem filter_after [Std.Asymm before] {shown rest : List ρ} {last : ρ}
    (hsorted : ((shown ++ [last]) ++ rest).Pairwise before) :
    ((shown ++ [last]) ++ rest).filter (before last ·) = rest := by
  obtain ⟨hfirst, -, hcross⟩ := List.pairwise_append.mp hsorted
  obtain ⟨-, -, hlast⟩ := List.pairwise_append.mp hfirst
  have hgone : (shown ++ [last]).filter (before last ·) = [] := by
    refine List.filter_eq_nil_iff.mpr ?_
    intro row hrow hafter
    rw [decide_eq_true_iff] at hafter
    rcases List.mem_append.mp hrow with hshown | hself
    · exact Std.Asymm.asymm _ _ hafter (hlast row hshown last (List.mem_singleton_self last))
    · rw [List.mem_singleton] at hself
      subst hself
      exact Std.Asymm.asymm _ _ hafter hafter
  have hleft : rest.filter (before last ·) = rest := by
    refine List.filter_eq_self.mpr ?_
    intro row hrow
    rw [decide_eq_true_iff]
    exact hcross last (List.mem_append_right _ (List.mem_singleton_self last)) row hrow
  rw [List.filter_append, hgone, hleft, List.nil_append]

variable {limit : Nat} {page : Option γ → Except ε (Page σ γ)} {found : Option ρ → List ρ} {rows : List ρ}

/-- From any cursor already reached, following yields exactly the rows that are left. -/
private theorem follow_rest [Std.Asymm before] (hsorted : rows.Pairwise before) (hpositive : 0 < limit)
    (hpage : ∀ cursor, (∀ last ∈ cursor, last ∈ rows) →
      page (cursor.map cursorOf) = .ok (cut item cursorOf limit (found cursor)))
    (hfound : ∀ last, found (some last) = rows.filter (before last ·)) (fuel : Nat) :
    ∀ (cursor : Option ρ) (shown : List ρ), (∀ last ∈ cursor, last ∈ rows) →
      rows = shown ++ found cursor → (found cursor).length ≤ fuel →
      follow page (fuel + 1) (cursor.map cursorOf) = some (.ok ((found cursor).map item)) := by
  induction fuel with
  | zero =>
    intro cursor shown hcursor _ hfuel
    rw [follow, hpage cursor hcursor, cut_of_le (by omega)]
  | succ fuel ih =>
    intro cursor shown hcursor hrows hfuel
    by_cases hmore : limit < (found cursor).length
    · obtain ⟨now, last, later, hrest, hlater, hcut⟩ := @cut_of_lt _ _ _ item cursorOf _ _ hpositive hmore
      have hsplit : rows = ((shown ++ now) ++ [last]) ++ later := by
        rw [hrows, hrest]
        simp only [List.append_assoc]
      have hafter : found (some last) = later := by
        rw [hfound last, hsplit]
        exact filter_after (hsplit ▸ hsorted)
      have hshorter : (found (some last)).length ≤ fuel := by
        have hlength := congrArg List.length hrest
        simp only [List.length_append, List.length_singleton] at hlength
        rw [hafter]
        omega
      have hlast : last ∈ rows := by
        rw [hsplit]
        simp
      have hfollow := ih (some last) ((shown ++ now) ++ [last]) (by simpa using hlast) (by rw [hafter, hsplit]) hshorter
      rw [follow, hpage cursor hcursor, hcut]
      rw [Option.map_some, hafter] at hfollow
      simp only [hfollow, Option.map_some, Except.map, hrest, List.map_append]
    · rw [follow, hpage cursor hcursor, cut_of_le (by omega)]

/-- Following the pages of a query over strictly ordered rows ends with each row once, in order. -/
theorem follow_sorted [Std.Asymm before] (hsorted : rows.Pairwise before) (hpositive : 0 < limit)
    (hpage : ∀ cursor, (∀ last ∈ cursor, last ∈ rows) →
      page (cursor.map cursorOf) = .ok (cut item cursorOf limit (found cursor)))
    (hfirst : found none = rows) (hfound : ∀ last, found (some last) = rows.filter (before last ·)) :
    ∃ fuel, follow page fuel none = some (.ok (rows.map item)) := by
  have hfollow := follow_rest hsorted hpositive hpage hfound rows.length none [] (by simp)
    (by rw [hfirst, List.nil_append]) (by rw [hfirst])
  rw [hfirst] at hfollow
  exact ⟨_, hfollow⟩

section Window

variable {τ : Type} {fetch : τ → Nat → Option γ → Except ε (Page σ γ)} {cap size : Nat}
  {found : τ → Option ρ → List ρ} {snapshots : List τ} {invariant finished : List ρ → Prop}

omit [DecidableRel before] in
/-- What every further page of a capped listing keeps holds of the window, and what the last page
    establishes holds of a window without a cursor. -/
theorem window_rule (hcap : 0 < cap)
    (hfetch : ∀ snapshot ∈ snapshots, ∀ shown, invariant shown → ∀ limit, 0 < limit → limit ≤ size →
      fetch snapshot limit (shown.getLast?.map cursorOf) =
        .ok (cut item cursorOf (min limit cap) (found snapshot shown.getLast?)))
    (hmore : ∀ snapshot ∈ snapshots, ∀ shown now later, invariant shown →
      found snapshot shown.getLast? = now ++ later → now ≠ [] → later ≠ [] → invariant (shown ++ now))
    (hdone : ∀ snapshot ∈ snapshots, ∀ shown now, invariant shown → found snapshot shown.getLast? = now →
      finished (shown ++ now))
    (hinitial : invariant []) (hsize : 0 < size) (hfuel : size ≤ snapshots.length) :
    ∃ shown next, window fetch size snapshots [] none = some (.ok ⟨shown.map item, next⟩) ∧
      (next = none ∧ shown.length ≤ size ∧ finished shown ∨
        next = shown.getLast?.map cursorOf ∧ shown.length = size ∧ invariant shown) := by
  have hrest : ∀ shown, invariant shown → shown.length < size → size - shown.length ≤ snapshots.length →
      ∃ shown' next, window fetch size snapshots (shown.map item) (shown.getLast?.map cursorOf) =
          some (.ok ⟨shown'.map item, next⟩) ∧
        (next = none ∧ shown'.length ≤ size ∧ finished shown' ∨
          next = shown'.getLast?.map cursorOf ∧ shown'.length = size ∧ invariant shown') := by
    clear hfuel
    induction snapshots with
    | nil =>
      intro shown _ hshort hfuel
      rw [List.length_nil] at hfuel
      omega
    | cons snapshot later ih =>
      intro shown hinvariant hshort hfuel
      have hlimit : 0 < size - shown.length := by omega
      rw [window, List.length_map, hfetch snapshot List.mem_cons_self shown hinvariant _ hlimit (by omega)]
      by_cases hmany : min (size - shown.length) cap < (found snapshot shown.getLast?).length
      · obtain ⟨now, last, after, hsplit, hafter, hcut⟩ :=
          @cut_of_lt _ _ _ item cursorOf _ _ (lt_min hlimit hcap) hmany
        have hlength : (now ++ [last]).length = min (size - shown.length) cap := by
          have hitems := congrArg (fun page => page.items.length) hcut
          simp only [cut, List.length_map, List.length_take] at hitems
          omega
        have hkept : invariant (shown ++ (now ++ [last])) :=
          hmore snapshot List.mem_cons_self shown _ after hinvariant hsplit (by simp) hafter
        have hlast : (shown ++ (now ++ [last])).getLast? = some last := by
          rw [← List.append_assoc, List.getLast?_concat]
        have hpositive : 0 < (now ++ [last]).length := by simp
        have hnonempty : ((now ++ [last]).map item).isEmpty = false := by simp
        rw [hcut]
        simp only [hnonempty, Bool.false_eq_true, if_false, Option.isSome_some, true_and, ← List.map_append,
          List.length_map]
        split_ifs with hfull
        · have hnext := ih (fun snapshot hmem => hfetch snapshot (List.mem_cons_of_mem _ hmem))
            (fun snapshot hmem => hmore snapshot (List.mem_cons_of_mem _ hmem))
            (fun snapshot hmem => hdone snapshot (List.mem_cons_of_mem _ hmem)) _ hkept hfull
            (by
              rw [List.length_append]
              rw [List.length_cons] at hfuel
              omega)
          rw [hlast, Option.map_some] at hnext
          exact hnext
        · rw [List.length_append] at hfull
          refine ⟨_, _, rfl, Or.inr ⟨by rw [hlast, Option.map_some], ?_, hkept⟩⟩
          rw [List.length_append]
          omega
      · have hall := hdone snapshot List.mem_cons_self shown _ hinvariant rfl
        rw [cut_of_le (by omega)]
        simp only [Option.isSome_none, Bool.false_eq_true, false_and, if_false, ite_self]
        refine ⟨shown ++ found snapshot shown.getLast?, none, by rw [List.map_append], Or.inl ⟨rfl, ?_, hall⟩⟩
        rw [List.length_append]
        omega
  exact hrest [] hinitial hsize (by simpa using hfuel)

/-- Rows after the last one shown go on in the strict order. -/
theorem pairwise_append_after [IsTrans ρ before] {shown now later rows : List ρ} (hshown : shown.Pairwise before)
    (hrows : rows.Pairwise before) (hnow : (rows.filter fun row => shown.getLast?.all (before · row)) = now ++ later) :
    (shown ++ now).Pairwise before := by
  have hfound : (now ++ later).Pairwise before := hnow ▸ hrows.filter _
  refine List.pairwise_append.mpr ⟨hshown, (List.pairwise_append.mp hfound).1, ?_⟩
  intro first hfirst row hrow
  have hmem : row ∈ rows.filter fun row => shown.getLast?.all (before · row) := by
    rw [hnow]
    exact List.mem_append_left _ hrow
  have hafter := (List.mem_filter.mp hmem).2
  rcases List.eq_nil_or_concat' shown with rfl | ⟨front, last, rfl⟩
  · cases hfirst
  · rw [List.getLast?_concat, Option.all_some, decide_eq_true_iff] at hafter
    rcases List.mem_append.mp hfirst with hfront | hself
    · have hlast := (List.pairwise_append.mp hshown).2.2 first hfront last (List.mem_singleton_self last)
      exact IsTrans.trans _ _ _ hlast hafter
    · rw [List.mem_singleton] at hself
      exact hself ▸ hafter

end Window

omit [DecidableRel before] in
/-- Followed one row at a time, the listing is in the strict order the cursors cut by. -/
theorem listed_of_follow [IsTrans ρ before]
    (hpage : ∀ cursor, (∀ last ∈ cursor, last ∈ rows) →
      page (cursor.map cursorOf) = .ok (cut item cursorOf 1 (found cursor)))
    (hfound : ∀ cursor, ∀ row ∈ found cursor, row ∈ rows ∧ ∀ last ∈ cursor, before last row) (fuel : Nat) :
    ∀ (cursor : Option ρ) (result : List σ), (∀ last ∈ cursor, last ∈ rows) →
      follow page fuel (cursor.map cursorOf) = some (.ok result) →
      ∃ listed : List ρ, result = listed.map item ∧ (∀ row ∈ listed, row ∈ rows ∧ ∀ last ∈ cursor, before last row) ∧
        listed.Pairwise before := by
  induction fuel with
  | zero =>
    intro cursor result _ hfollow
    rw [follow] at hfollow
    cases hfollow
  | succ fuel ih =>
    intro cursor result hcursor hfollow
    have hmem := hfound cursor
    rw [follow, hpage cursor hcursor] at hfollow
    cases hrows : found cursor with
    | nil =>
      rw [hrows, cut_of_le (by simp)] at hfollow
      obtain rfl : [] = result := by simpa using hfollow
      exact ⟨[], rfl, by simp, List.Pairwise.nil⟩
    | cons first others =>
      rw [hrows] at hfollow hmem
      have hfirst := hmem first List.mem_cons_self
      cases others with
      | nil =>
        rw [cut_of_le (by simp)] at hfollow
        obtain rfl : [item first] = result := by simpa using hfollow
        refine ⟨[first], rfl, ?_, List.pairwise_singleton _ _⟩
        simpa using hfirst
      | cons second others =>
        have hcut : cut item cursorOf 1 (first :: second :: others) = ⟨[item first], some (cursorOf first)⟩ := by
          simp [cut]
        simp only [hcut, Option.map_eq_some_iff] at hfollow
        obtain ⟨outcome, hlater, hresult⟩ := hfollow
        cases outcome with
        | error _ => cases hresult
        | ok later =>
          obtain ⟨listed, rfl, hafter, hsorted⟩ := ih (some first) later (by simpa using hfirst.1) hlater
          obtain rfl : [item first] ++ listed.map item = result := by simpa [Except.map] using hresult
          refine ⟨first :: listed, rfl, ?_, List.pairwise_cons.mpr ⟨?_, hsorted⟩⟩
          · intro row hrow
            rcases List.mem_cons.mp hrow with rfl | hrest
            · exact hfirst
            · have hstep := (hafter row hrest).2 first rfl
              exact ⟨(hafter row hrest).1, fun last hlast => IsTrans.trans _ _ _ (hfirst.2 last hlast) hstep⟩
          · intro row hrow
            exact (hafter row hrow).2 first rfl

end Order

end seek
