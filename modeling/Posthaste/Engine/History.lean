import Posthaste.Engine.Client
import Posthaste.Library.Versioned

open posthaste.model posthaste.store

namespace posthaste.engine

class JmapObject (ρ : Type) where
  id : ρ → String

instance : JmapObject MessageRecord := ⟨MessageRecord.id⟩

instance : JmapObject Mailbox := ⟨Mailbox.id⟩

/-- The objects of one type a server holds, moment by moment and in the order a
    query lists them, and the moment at which it answers each request. -/
structure History (ρ : Type) [JmapObject ρ] where
  objects : Nat → List ρ
  state : Nat → String
  query_state : Nat → String
  moment : Nat → Nat
  nodup : ∀ moment, ((objects moment).map JmapObject.id).Nodup
  state_injective : Function.Injective state
  query_state_changes : ∀ first second, query_state first = query_state second →
    (objects first).map JmapObject.id = (objects second).map JmapObject.id
  moment_monotone : Monotone moment

namespace History

variable {ρ : Type} [JmapObject ρ] (history : History ρ)

/-- The result of the unfiltered query at a moment. -/
def listing (moment : Nat) : List String := (history.objects moment).map JmapObject.id

def content : Versioned String ρ := fun moment id => (history.objects moment).find? (JmapObject.id · = id)

theorem content_eq_some_iff {moment : Nat} {id : String} {object : ρ} :
    history.content moment id = some object ↔ object ∈ history.objects moment ∧ JmapObject.id object = id := by
  unfold content
  constructor
  · intro hfind
    exact ⟨List.mem_of_find?_eq_some hfind, by simpa using List.find?_some hfind⟩
  · rintro ⟨hmem, hid⟩
    obtain ⟨found, hfound⟩ : ∃ found, (history.objects moment).find? (JmapObject.id · = id) = some found := by
      rw [← Option.isSome_iff_exists, List.find?_isSome]
      exact ⟨object, hmem, by simpa using hid⟩
    have hid' : JmapObject.id found = id := by simpa using List.find?_some hfound
    rw [hfound, Option.some_inj]
    exact List.inj_on_of_nodup_map (history.nodup moment) (List.mem_of_find?_eq_some hfound) hmem (hid'.trans hid.symm)

theorem content_ne_none_iff {moment : Nat} {id : String} :
    history.content moment id ≠ none ↔ id ∈ history.listing moment := by
  rw [Option.ne_none_iff_exists', listing, List.mem_map]
  exact exists_congr fun object => history.content_eq_some_iff

/-- Where in a result the window of a query starts. -/
def windowStart (result : List String) : Window → Option Nat
  | .position position => some (if 0 ≤ position then position else result.length + position).toNat
  | .anchor anchor offset => (result.idxOf? anchor).map fun (index : Nat) => ((index : Int) + offset).toNat

/-- The server answers from the history. Any limit may be applied to a page of a
    query, and it is reported when it is; any page of changes may end early. -/
structure Conforms (methods : Methods ρ) : Prop where
  changes : ∀ {number since_state max_changes response},
    methods.changes number since_state max_changes = .ok response →
      ∃ first last, since_state = history.state first ∧ first ≤ last ∧ last ≤ history.moment number ∧
        response.new_state = history.state last ∧
        (response.has_more_changes = true ↔ last < history.moment number) ∧
        (∀ id, id ∈ response.created ↔ history.content first id = none ∧ history.content last id ≠ none) ∧
        (∀ id, id ∈ response.updated ↔ history.content first id ≠ none ∧ history.content last id ≠ none ∧
          history.content.Changed first last id) ∧
        (∀ id, id ∈ response.destroyed ↔ history.content first id ≠ none ∧ history.content last id = none)
  get : ∀ {number ids response}, methods.get number ids = .ok response →
    response.state = history.state (history.moment number) ∧
      ∀ object, object ∈ response.list ↔
        object ∈ history.objects (history.moment number) ∧ JmapObject.id object ∈ ids
  query : ∀ {number request response}, methods.query number request = .ok response →
    response.query_state = history.query_state (history.moment number) ∧
      (∀ total, response.total = some total → total = (history.listing (history.moment number)).length) ∧
      ∃ start, windowStart (history.listing (history.moment number)) request.window = some start ∧
        response.limit.getD request.limit ≤ request.limit ∧
        response.ids =
          ((history.listing (history.moment number)).drop start).take (response.limit.getD request.limit)

/-- One state string for each moment. -/
def unaryState (moment : Nat) : String := String.ofList (List.replicate (moment + 1) 's')

theorem unaryState_injective : Function.Injective unaryState := by
  intro first second hsame
  have hlists : List.replicate (first + 1) 's' = List.replicate (second + 1) 's' := String.ofList_injective hsame
  have hlength := congrArg List.length hlists
  rw [List.length_replicate, List.length_replicate] at hlength
  omega

def ofObjects (objects : Nat → List ρ) (moment : Nat → Nat)
    (hnodup : ∀ moment, ((objects moment).map JmapObject.id).Nodup) (hmonotone : Monotone moment) : History ρ where
  objects := objects
  state := unaryState
  query_state := unaryState
  moment := moment
  nodup := hnodup
  state_injective := unaryState_injective
  query_state_changes _ _ hsame := by rw [unaryState_injective hsame]
  moment_monotone := hmonotone

/-- The choices left to a conforming server: where a page of changes ends, the
    limit it puts on a page, and whether it gives the total. -/
structure Choices where
  upto : Nat → Nat
  cap : Nat → Nat
  totals : Bool

variable [DecidableEq ρ] (choices : Choices)

def serve_changes (number : Nat) (since_state : String) : Except JmapError ChangesResponse :=
  match (List.range (history.moment number + 1)).find? (history.state · = since_state) with
  | none => .error (.Method .CannotCalculateChanges "cannotCalculateChanges")
  | some first =>
    let last := max first (min (choices.upto number) (history.moment number))
    .ok {
      created := (history.listing last).filter (history.content first · = none)
      updated := (history.listing last).filter fun id =>
        history.content first id ≠ none ∧ history.content.Changed first last id
      destroyed := (history.listing first).filter (history.content last · = none)
      new_state := history.state last
      has_more_changes := last < history.moment number }

def serve_get (number : Nat) (ids : List String) : GetResponse ρ where
  list := (history.objects (history.moment number)).filter (JmapObject.id · ∈ ids)
  state := history.state (history.moment number)

def serve_query (number : Nat) (request : QueryRequest) : Except JmapError QueryResponse :=
  let result := history.listing (history.moment number)
  match windowStart result request.window with
  | none => .error (.Method (.Other "anchorNotFound") "anchorNotFound")
  | some start =>
    let applied := min request.limit (choices.cap number)
    .ok {
      ids := (result.drop start).take applied
      query_state := history.query_state (history.moment number)
      total := if choices.totals then some result.length else none
      limit := if applied < request.limit then some applied else none }

/-- A server that conforms by construction. -/
def serve : Methods ρ where
  changes number since_state _ := history.serve_changes choices number since_state
  get number ids := .ok (history.serve_get number ids)
  query number request := history.serve_query choices number request

theorem serve_conforms : history.Conforms (history.serve choices) where
  changes := by
    intro number since_state max_changes response hresponse
    simp only [serve, serve_changes] at hresponse
    cases hfirst : (List.range (history.moment number + 1)).find? (history.state · = since_state) with
    | none =>
      rw [hfirst] at hresponse
      cases hresponse
    | some first =>
      rw [hfirst] at hresponse
      cases hresponse
      have hsince : history.state first = since_state := by simpa using List.find?_some hfirst
      have hrange : first ≤ history.moment number := by
        have hmem := List.mem_range.mp (List.mem_of_find?_eq_some hfirst)
        omega
      refine ⟨first, _, hsince.symm, le_max_left _ _, ?_, rfl, by simp, ?_, ?_, ?_⟩
      · exact max_le hrange (min_le_right _ _)
      · intro id
        rw [List.mem_filter, decide_eq_true_iff, ← content_ne_none_iff, and_comm]
      · intro id
        rw [List.mem_filter, decide_eq_true_iff, ← content_ne_none_iff, and_left_comm]
      · intro id
        rw [List.mem_filter, decide_eq_true_iff, ← content_ne_none_iff]
  get := by
    intro number ids response hresponse
    cases hresponse
    exact ⟨rfl, fun object => by rw [serve_get, List.mem_filter, decide_eq_true_iff]⟩
  query := by
    intro number request response hresponse
    simp only [serve, serve_query] at hresponse
    cases hstart : windowStart (history.listing (history.moment number)) request.window with
    | none =>
      rw [hstart] at hresponse
      cases hresponse
    | some start =>
      rw [hstart] at hresponse
      cases hresponse
      have hlimit : (if min request.limit (choices.cap number) < request.limit then
          some (min request.limit (choices.cap number)) else none).getD request.limit =
            min request.limit (choices.cap number) := by
        split_ifs with hlt
        · rfl
        · exact (le_antisymm (min_le_left _ _) (Nat.not_lt.mp hlt)).symm
      refine ⟨rfl, ?_, start, rfl, ?_, ?_⟩
      · intro total htotal
        simp only at htotal
        split_ifs at htotal
        · exact (Option.some_inj.mp htotal).symm
      · simp only
        rw [hlimit]
        exact min_le_left _ _
      · simp only
        rw [hlimit]

end History

end posthaste.engine
