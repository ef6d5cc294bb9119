import Mathlib.Algebra.Group.Int.Defs
import Mathlib.Data.List.Chain
import Posthaste.Engine.History

open posthaste.model posthaste.store

namespace posthaste.engine

def FULL_SNAPSHOT_EMAIL_QUERY_PAGE_SIZE : Nat := 5000

def FULL_SNAPSHOT_MAILBOX_QUERY_PAGE_SIZE : Nat := 1000

/-- A length cast to thirty-two signed bits. -/
def asI32 (length : Nat) : Int := (length : Int).bmod (2 ^ 32)

/-- The ids listed so far, each once, and the last total the server gave. -/
structure Listing where
  ids : List String
  reported_total : Option Nat
  deriving DecidableEq

namespace Listing

def begin : Listing where
  ids := []
  reported_total := none

def appendUnseen (ids : List String) : List String → List String
  | [] => ids
  | id :: rest => appendUnseen (if id ∈ ids then ids else ids ++ [id]) rest

def add (listing : Listing) (response : QueryResponse) : Listing where
  ids := appendUnseen listing.ids response.ids
  reported_total := response.total.or listing.reported_total

/-- Nothing says that ids are missing. -/
def reachesTotal (listing : Listing) : Bool := listing.reported_total.all (· ≤ listing.ids.length)

/-- Whether the walk ends with this page, and if so whether the listing counts as complete. -/
def verdict (listing : Listing) (page_size : Nat) (response : QueryResponse) : Option Bool :=
  let after := listing.add response
  if after.reported_total.any (· ≤ after.ids.length) then some true
  else if response.ids.isEmpty then some after.reachesTotal
  else if after.ids.length = listing.ids.length then some false
  else if response.ids.length < response.limit.getD page_size then some after.reachesTotal
  else none

end Listing

/-- Page through the emails by anchor, as long as the query state stays the same. -/
def list_email_pages (methods : Methods MessageRecord) :
    Nat → Option String → Option String → Listing → Fetch MessageRecord (List String × Bool)
  | 0, _, _, _ => throw .running
  | fuel + 1, anchor, first_query_state, listing => do
    let response ← send_query methods {
      window := (anchor.map (Window.anchor · 1)).getD (.position 0), limit := FULL_SNAPSHOT_EMAIL_QUERY_PAGE_SIZE }
    if first_query_state.any (· ≠ response.query_state) then return (listing.ids, false)
    else
      let after := listing.add response
      match listing.verdict FULL_SNAPSHOT_EMAIL_QUERY_PAGE_SIZE response with
      | some complete => return (after.ids, complete)
      | none =>
        list_email_pages methods fuel response.ids.getLast? (first_query_state.or (some response.query_state)) after

def fetch_all_remote_email_ids (methods : Methods MessageRecord) (fuel : Nat) :
    Fetch MessageRecord (List String × Bool) := list_email_pages methods fuel none none .begin

/-- Page through the mailboxes by position. -/
def list_mailbox_pages (methods : Methods Mailbox) : Nat → Int → Listing → Fetch Mailbox (List String × Bool)
  | 0, _, _ => throw .running
  | fuel + 1, position, listing => do
    let response ← send_query methods { window := .position position, limit := FULL_SNAPSHOT_MAILBOX_QUERY_PAGE_SIZE }
    let after := listing.add response
    match listing.verdict FULL_SNAPSHOT_MAILBOX_QUERY_PAGE_SIZE response with
    | some complete => return (after.ids, complete)
    | none =>
      let next := position + asI32 response.ids.length
      if -2 ^ 31 ≤ next ∧ next < 2 ^ 31 then list_mailbox_pages methods fuel next after
      else throw (.failed (.Rejected "Mailbox/query position overflow while paginating"))

def fetch_all_remote_mailbox_ids (methods : Methods Mailbox) (fuel : Nat) : Fetch Mailbox (List String × Bool) :=
  list_mailbox_pages methods fuel 0 .begin

namespace Listing

/-- What a walk makes of its pages: the ids it lists, and whether they count as complete. -/
def walk (page_size : Nat) (guarded : Bool) : Option String → Listing → List QueryResponse → List String × Bool
  | _, listing, [] => (listing.ids, false)
  | first_query_state, listing, page :: rest =>
    if guarded && first_query_state.any (· ≠ page.query_state) then (listing.ids, false)
    else
      match listing.verdict page_size page with
      | some complete => ((listing.add page).ids, complete)
      | none => walk page_size guarded (first_query_state.or (some page.query_state)) (listing.add page) rest

variable {ids page result : List String} {id : String}

theorem appendUnseen_of_fresh (hfresh : ∀ id ∈ page, id ∉ ids) (hnodup : page.Nodup) :
    appendUnseen ids page = ids ++ page := by
  induction page generalizing ids with
  | nil => rw [appendUnseen, List.append_nil]
  | cons first rest ih =>
    rw [appendUnseen, if_neg (hfresh first List.mem_cons_self), ih]
    · simp
    · intro id hid hmem
      obtain hold | hfirst := List.mem_append.mp hmem
      · exact hfresh id (List.mem_cons_of_mem _ hid) hold
      · rw [List.mem_singleton.mp hfirst] at hid
        exact (List.nodup_cons.mp hnodup).1 hid
    · exact (List.nodup_cons.mp hnodup).2

/-- The ids listed are the first of the result, in some order. -/
structure Prefix (ids result : List String) : Prop where
  nodup : ids.Nodup
  mem_iff : ∀ id, id ∈ ids ↔ id ∈ result.take ids.length

/-- A page that starts where the listed ids end extends them. -/
theorem Prefix.extend (hlead : Prefix ids result) (hresult : result.Nodup) (limit : Nat)
    (hpage : page = (result.drop ids.length).take limit) :
    appendUnseen ids page = ids ++ page ∧ Prefix (ids ++ page) result := by
  have hnodup : page.Nodup := by
    rw [hpage]
    exact (hresult.sublist (List.drop_sublist _ _)).sublist (List.take_sublist _ _)
  have hdisjoint : List.Disjoint (result.take ids.length) (result.drop ids.length) :=
    List.disjoint_take_drop hresult le_rfl
  have hfresh : ∀ id ∈ page, id ∉ ids := by
    intro id hid hmem
    rw [hpage] at hid
    exact hdisjoint ((hlead.mem_iff id).mp hmem) (List.mem_of_mem_take hid)
  refine ⟨appendUnseen_of_fresh hfresh hnodup, ?_, ?_⟩
  · exact List.nodup_append.mpr ⟨hlead.nodup, hnodup, fun id hid other hother heq => hfresh other hother (heq ▸ hid)⟩
  · intro id
    have htake : result.take (ids ++ page).length = result.take ids.length ++ page := by
      rw [List.length_append, List.take_add, hpage]
      congr 1
      rw [List.length_take]
      by_cases hlimit : limit ≤ (result.drop ids.length).length
      · rw [min_eq_left hlimit]
      · rw [min_eq_right (by omega), List.take_length, List.take_of_length_le (by omega)]
    rw [htake, List.mem_append, List.mem_append, hlead.mem_iff]

/-- As many ids as the result has are the whole result. -/
theorem Prefix.mem_result_iff (hlead : Prefix ids result) (hlength : result.length ≤ ids.length) :
    id ∈ ids ↔ id ∈ result := by
  rw [hlead.mem_iff, List.take_of_length_le hlength]

/-- A listing counts as complete by the total, or without one by an empty or short page. -/
theorem verdict_true {listing : Listing} {page_size : Nat} {response : QueryResponse}
    (hverdict : listing.verdict page_size response = some true) :
    (∃ total, (listing.add response).reported_total = some total ∧ total ≤ (listing.add response).ids.length) ∨
      (listing.add response).reported_total = none ∧
        (response.ids = [] ∨ response.ids.length < response.limit.getD page_size) := by
  unfold verdict reachesTotal at hverdict
  cases hreported : (listing.add response).reported_total with
  | some total =>
    refine Or.inl ⟨total, rfl, ?_⟩
    by_contra hshort
    have hfalse : decide (total ≤ (listing.add response).ids.length) = false := decide_eq_false hshort
    simp only [hreported, Option.any_some, Option.all_some, hfalse, Bool.false_eq_true, if_false] at hverdict
    split_ifs at hverdict <;> simp at hverdict
  | none =>
    refine Or.inr ⟨rfl, ?_⟩
    simp only [hreported, Option.any_none, Bool.false_eq_true, if_false] at hverdict
    by_cases hempty : response.ids.isEmpty = true
    · exact Or.inl (List.isEmpty_iff.mp hempty)
    · rw [if_neg hempty] at hverdict
      split_ifs at hverdict with hstuck hshort
      · simp at hverdict
      · exact Or.inr hshort

/-- On a page that starts where the listed ids end, a listing that counts as
    complete has every id of the result. -/
theorem verdict_exact {listing : Listing} {page_size : Nat} {response : QueryResponse}
    (hlead : Prefix listing.ids result) (hresult : result.Nodup) (hsize : 0 < page_size)
    (hpage : response.ids = (result.drop listing.ids.length).take (response.limit.getD page_size))
    (htotal : ∀ total, (listing.add response).reported_total = some total → total = result.length)
    (hcapped : (listing.add response).reported_total = none → response.limit = some 0 →
      result.length ≤ listing.ids.length)
    (hverdict : listing.verdict page_size response = some true) :
    (listing.add response).ids.Nodup ∧ ∀ id, id ∈ (listing.add response).ids ↔ id ∈ result := by
  obtain ⟨hids, hextended⟩ := hlead.extend hresult _ hpage
  have hadded : (listing.add response).ids = listing.ids ++ response.ids := hids
  rw [← hadded] at hextended
  refine ⟨hextended.nodup, fun id => hextended.mem_result_iff ?_⟩
  have hlength : (listing.add response).ids.length = listing.ids.length + response.ids.length := by
    rw [hadded, List.length_append]
  have hpageLength : response.ids.length = min (response.limit.getD page_size) (result.length - listing.ids.length) := by
    rw [hpage, List.length_take, List.length_drop]
  obtain ⟨total, hreported, hreached⟩ | ⟨hreported, hempty | hshort⟩ := verdict_true hverdict
  · rw [← htotal total hreported]
    exact hreached
  · rw [hempty, List.length_nil] at hpageLength
    by_cases hzero : response.limit = some 0
    · exact (hcapped hreported hzero).trans (by omega)
    · have hpositive : 0 < response.limit.getD page_size := by
        cases hlimit : response.limit with
        | none => exact hsize
        | some limit =>
          rw [hlimit] at hzero
          exact Nat.pos_of_ne_zero fun hnone => hzero (congrArg some hnone)
      omega
  · omega

end Listing

section Walks

variable {fuel : Nat} {listing : Listing} {listed : List String × Bool}

theorem list_email_pages_ok {methods : Methods MessageRecord} {session after : Session MessageRecord}
    {anchor first_query_state : Option String}
    (hrun : (list_email_pages methods fuel anchor first_query_state listing).run session = .ok listed after) :
    ∃ log, Exchanged methods session after log ∧ requested log = [] ∧ after.emitted = session.emitted ∧
      listed = listing.walk FULL_SNAPSHOT_EMAIL_QUERY_PAGE_SIZE true first_query_state (queryPages log) := by
  induction fuel generalizing session anchor first_query_state listing with
  | zero => cases hrun
  | succ fuel ih =>
    obtain ⟨response, asked, hquery, hnext⟩ := effects.run_bind_eq_ok_iff.mp hrun
    have hasked := send_query_ok hquery
    have hemitted : asked.emitted = session.emitted := by
      rw [(request_ok hquery).2]
    simp only at hnext
    split_ifs at hnext with hmoved
    · cases hnext
      refine ⟨_, hasked, rfl, hemitted, ?_⟩
      simp only [queryPages, Listing.walk, Bool.true_and, if_pos hmoved]
    · cases hverdict : listing.verdict FULL_SNAPSHOT_EMAIL_QUERY_PAGE_SIZE response with
      | some complete =>
        simp only [hverdict] at hnext
        cases hnext
        refine ⟨_, hasked, rfl, hemitted, ?_⟩
        simp only [queryPages, Listing.walk, Bool.true_and, if_neg hmoved, hverdict]
      | none =>
        simp only [hverdict] at hnext
        obtain ⟨log, hlog, hrequested, hkept, hlisted⟩ := ih hnext
        refine ⟨_, hasked.trans hlog, hrequested, hkept.trans hemitted, ?_⟩
        rw [hlisted]
        simp only [List.singleton_append, queryPages, Listing.walk, Bool.true_and, if_neg hmoved, hverdict]

theorem list_mailbox_pages_ok {methods : Methods Mailbox} {session after : Session Mailbox} {position : Int}
    {first_query_state : Option String}
    (hrun : (list_mailbox_pages methods fuel position listing).run session = .ok listed after) :
    ∃ log, Exchanged methods session after log ∧ requested log = [] ∧ after.emitted = session.emitted ∧
      listed = listing.walk FULL_SNAPSHOT_MAILBOX_QUERY_PAGE_SIZE false first_query_state (queryPages log) := by
  induction fuel generalizing session position listing first_query_state with
  | zero => cases hrun
  | succ fuel ih =>
    obtain ⟨response, asked, hquery, hnext⟩ := effects.run_bind_eq_ok_iff.mp hrun
    have hasked := send_query_ok hquery
    have hemitted : asked.emitted = session.emitted := by
      rw [(request_ok hquery).2]
    cases hverdict : listing.verdict FULL_SNAPSHOT_MAILBOX_QUERY_PAGE_SIZE response with
    | some complete =>
      simp only [hverdict] at hnext
      cases hnext
      refine ⟨_, hasked, rfl, hemitted, ?_⟩
      simp only [queryPages, Listing.walk, Bool.false_and, Bool.false_eq_true, if_false, hverdict]
    | none =>
      simp only [hverdict] at hnext
      split_ifs at hnext with hbound
      · obtain ⟨log, hlog, hrequested, hkept, hlisted⟩ := @ih _ _ _ (first_query_state.or (some response.query_state)) hnext
        refine ⟨_, hasked.trans hlog, hrequested, hkept.trans hemitted, ?_⟩
        rw [hlisted]
        simp only [List.singleton_append, queryPages, Listing.walk, Bool.false_and, Bool.false_eq_true, if_false,
          hverdict]
      · cases hnext

end Walks

section Exactness

variable {ρ : Type} [JmapObject ρ] (history : History ρ)

/-- Before any page gave the total, the server capped one at no ids though ids remained. -/
def CappedBlind : List (Exchange ρ) → Prop
  | .query number request response :: rest =>
    response.total = none ∧
      ((response.limit = some 0 ∧ ∃ start,
        History.windowStart (history.listing (history.moment number)) request.window = some start ∧
          start < (history.listing (history.moment number)).length) ∨ CappedBlind rest)
  | .changes _ _ _ :: rest | .get _ _ _ :: rest => CappedBlind rest
  | [] => False

/-- The ids are those of the collection at some moment one of these requests was answered at. -/
def ExactAt (first last : Nat) (ids : List String) : Prop :=
  ∃ number, first ≤ number ∧ number < last ∧ ids.Nodup ∧ ∀ id, id ∈ ids ↔ id ∈ history.listing (history.moment number)

variable {history} {methods : Methods ρ} {number : Nat} {request : QueryRequest} {response : QueryResponse}

/-- The page of a window that starts here. -/
theorem History.Conforms.page (hconforms : history.Conforms methods)
    (hanswer : methods.query number request = .ok response) {start : Nat}
    (hstart : History.windowStart (history.listing (history.moment number)) request.window = some start) :
    response.ids =
      ((history.listing (history.moment number)).drop start).take (response.limit.getD request.limit) := by
  obtain ⟨_, _, found, hfound, _, hids⟩ := hconforms.query hanswer
  rw [hstart] at hfound
  rw [hids, Option.some_inj.mp hfound]

/-- Just past the last id of a page the next page starts. -/
theorem windowStart_anchor {result page : List String} {start limit : Nat} {last : String} (hresult : result.Nodup)
    (hpage : page = (result.drop start).take limit) (hlast : page.getLast? = some last) :
    History.windowStart result (.anchor last 1) = some (start + page.length) := by
  have hpositive : 0 < page.length := by
    rw [List.length_pos_iff]
    rintro rfl
    cases hlast
  have hbound : start + page.length ≤ result.length := by
    have hlength : page.length = min limit (result.length - start) := by
      rw [hpage, List.length_take, List.length_drop]
    omega
  have hat : result[start + page.length - 1]? = some last := by
    rw [List.getLast?_eq_getElem?] at hlast
    rw [← hlast]
    subst hpage
    rw [List.getElem?_take, List.getElem?_drop, if_pos]
    · congr 1
      omega
    · rw [List.length_take] at hpositive ⊢
      omega
  obtain ⟨hindex, hget⟩ := List.getElem?_eq_some_iff.mp hat
  have hidx : result.idxOf? last = some (start + page.length - 1) := by
    refine List.idxOf?_eq_some_iff.mpr ⟨hindex, hget, ?_⟩
    intro other hother hsame
    have hequal := (List.Nodup.getElem_inj_iff hresult).mp (hsame.trans hget.symm)
    omega
  simp only [History.windowStart]
  rw [hidx, Option.map_some]
  congr 1
  omega

end Exactness

section Emails

variable {history : History MessageRecord} {methods : Methods MessageRecord}

/-- What holds of an email walk between two pages, about the result it pages through. -/
structure EmailWalk (history : History MessageRecord) (anchor : Option String) (listing : Listing) (moment : Nat) :
    Prop where
  ids : Listing.Prefix listing.ids (history.listing moment)
  start : History.windowStart (history.listing moment) ((anchor.map (Window.anchor · 1)).getD (.position 0)) =
    some listing.ids.length
  total : ∀ total, listing.reported_total = some total → total = (history.listing moment).length

theorem EmailWalk.begin (moment : Nat) : EmailWalk history none .begin moment where
  ids := ⟨List.nodup_nil, fun id => by simp [Listing.begin]⟩
  start := rfl
  total := by
    intro total htotal
    cases htotal

theorem total_add {listing : Listing} {response : QueryResponse} {length total : Nat}
    (hbefore : ∀ total, listing.reported_total = some total → total = length)
    (hresponse : ∀ total, response.total = some total → total = length)
    (hreported : (listing.add response).reported_total = some total) : total = length := by
  obtain hnew | ⟨_, hold⟩ := Option.or_eq_some_iff.mp hreported
  · exact hresponse total hnew
  · exact hbefore total hold

/-- A page moves the walk on, over the result it was answered from. -/
theorem EmailWalk.next {anchor : Option String} {listing : Listing} {number moment : Nat} {response : QueryResponse}
    (hconforms : history.Conforms methods)
    (hwalk : EmailWalk history anchor listing (history.moment number))
    (hanswer : methods.query number {
      window := (anchor.map (Window.anchor · 1)).getD (.position 0), limit := FULL_SNAPSHOT_EMAIL_QUERY_PAGE_SIZE } =
        .ok response)
    (hverdict : listing.verdict FULL_SNAPSHOT_EMAIL_QUERY_PAGE_SIZE response = none)
    (hsame : history.listing moment = history.listing (history.moment number)) :
    EmailWalk history response.ids.getLast? (listing.add response) moment := by
  have hpage := hconforms.page hanswer hwalk.start
  have hresult : (history.listing (history.moment number)).Nodup := history.nodup _
  obtain ⟨hids, hextended⟩ := hwalk.ids.extend hresult _ hpage
  have hadded : (listing.add response).ids = listing.ids ++ response.ids := hids
  refine ⟨?_, ?_, ?_⟩
  · rw [hadded, hsame]
    exact hextended
  · cases hlast : response.ids.getLast? with
    | none =>
      rw [List.getLast?_eq_none_iff] at hlast
      unfold Listing.verdict at hverdict
      rw [hlast] at hverdict
      simp only [List.isEmpty_nil, if_true] at hverdict
      split_ifs at hverdict
    | some last =>
      rw [Option.map_some, Option.getD_some, hsame, windowStart_anchor hresult hpage hlast, hadded, List.length_append]
  · intro total htotal
    rw [hsame]
    exact total_add hwalk.total (hconforms.query hanswer).2.1 htotal

/-- A conforming server's email listing that counts as complete is exact, unless
    a page came capped at nothing before any total. -/
theorem email_walk_exact (hconforms : history.Conforms methods) {fuel : Nat} {anchor first_query_state : Option String}
    {listing : Listing} {session after : Session MessageRecord} {ids : List String}
    (hwalk : ∀ moment, first_query_state.all (· = history.query_state moment) = true →
      EmailWalk history anchor listing moment)
    (hrun : (list_email_pages methods fuel anchor first_query_state listing).run session = .ok (ids, true) after) :
    ∃ log, Exchanged methods session after log ∧
      ((listing.reported_total = none → ¬ CappedBlind history log) → ExactAt history session.sent after.sent ids) := by
  induction fuel generalizing session anchor first_query_state listing with
  | zero => cases hrun
  | succ fuel ih =>
    obtain ⟨response, asked, hquery, hnext⟩ := effects.run_bind_eq_ok_iff.mp hrun
    have hasked := send_query_ok hquery
    obtain ⟨_, hanswer⟩ := hasked.answered.1
    obtain ⟨hstate, htotal, _⟩ := hconforms.query hanswer
    simp only at hnext
    split_ifs at hnext with hmoved
    · cases hnext
    · have hconsistent : first_query_state.all (· = history.query_state (history.moment session.sent)) = true := by
        rw [← hstate]
        cases first_query_state with
        | none => rfl
        | some first => simpa using hmoved
      have hhere := hwalk _ hconsistent
      cases hverdict : listing.verdict FULL_SNAPSHOT_EMAIL_QUERY_PAGE_SIZE response with
      | some complete =>
        simp only [hverdict] at hnext
        cases hnext
        refine ⟨_, hasked, fun hblind => ⟨session.sent, le_rfl, by rw [hasked.sent_eq]; exact Nat.lt_succ_self _, ?_⟩⟩
        have hsize : 0 < FULL_SNAPSHOT_EMAIL_QUERY_PAGE_SIZE := by decide
        refine Listing.verdict_exact hhere.ids (history.nodup _) hsize (hconforms.page hanswer hhere.start)
          (fun total hreported => total_add hhere.total htotal hreported) ?_ hverdict
        intro hreported hcapped
        obtain ⟨hnone, hbefore⟩ := Option.or_eq_none_iff.mp hreported
        by_contra hshort
        exact hblind hbefore ⟨hnone, Or.inl ⟨hcapped, _, hhere.start, Nat.not_le.mp hshort⟩⟩
      | none =>
        simp only [hverdict] at hnext
        have hlater : ∀ moment, (first_query_state.or (some response.query_state)).all (· = history.query_state moment) =
            true → EmailWalk history response.ids.getLast? (listing.add response) moment := by
          intro moment hmoment
          refine hhere.next hconforms hanswer hverdict (history.query_state_changes _ _ ?_)
          rw [← hstate]
          cases first_query_state with
          | none => simpa using Eq.symm (by simpa using hmoment)
          | some first =>
            have hfirst : first = history.query_state moment := by simpa using hmoment
            have hsame : first = response.query_state := by simpa using hmoved
            rw [← hfirst, hsame]
        obtain ⟨log, hlog, hexact⟩ := ih hlater hnext
        refine ⟨_, hasked.trans hlog, fun hblind => ?_⟩
        have hrest : (listing.add response).reported_total = none → ¬ CappedBlind history log := by
          intro hreported hcapped
          obtain ⟨hnone, hbefore⟩ := Option.or_eq_none_iff.mp hreported
          exact hblind hbefore ⟨hnone, Or.inr hcapped⟩
        obtain ⟨number, hfirst, hlast, hnumber⟩ := hexact hrest
        refine ⟨number, ?_, hlast, hnumber⟩
        rw [hasked.sent_eq] at hfirst
        exact Nat.le_of_succ_le hfirst

end Emails

section Mailboxes

variable {history : History Mailbox} {methods : Methods Mailbox}

/-- Between two pages nothing enters or leaves the part of the result already
    passed, and the total is not withheld once it was given. -/
def Undisturbed (history : History Mailbox) : Exchange Mailbox → Exchange Mailbox → Prop
  | .query first _ earlier, .query second request later =>
    (later.total = none → earlier.total = none) ∧ ∀ position, request.window = .position position →
      ∀ id, id ∈ (history.listing (history.moment first)).take position.toNat ↔
        id ∈ (history.listing (history.moment second)).take position.toNat
  | _, _ => True

/-- What holds of a mailbox walk after its last page, about the result that page was answered from. -/
def MailboxWalk (history : History Mailbox) (listing : Listing) : Option (Exchange Mailbox) → Prop
  | none => listing = .begin
  | some (.query number _ response) =>
    Listing.Prefix listing.ids (history.listing (history.moment number)) ∧
      (response.total = none → listing.reported_total = none)
  | some _ => False

theorem asI32_of_le {length : Nat} (hle : length ≤ FULL_SNAPSHOT_MAILBOX_QUERY_PAGE_SIZE) : asI32 length = length := by
  unfold asI32
  unfold FULL_SNAPSHOT_MAILBOX_QUERY_PAGE_SIZE at hle
  exact Int.bmod_eq_of_le (by omega) (by omega)

/-- A page that does not end the walk leads to the next one. -/
theorem run_list_mailbox_pages_next {fuel : Nat} {position : Int} {listing : Listing} {session asked : Session Mailbox}
    {response : QueryResponse}
    (hquery : (send_query methods {
      window := .position position, limit := FULL_SNAPSHOT_MAILBOX_QUERY_PAGE_SIZE }).run session = .ok response asked)
    (hverdict : listing.verdict FULL_SNAPSHOT_MAILBOX_QUERY_PAGE_SIZE response = none)
    (hlength : response.ids.length ≤ FULL_SNAPSHOT_MAILBOX_QUERY_PAGE_SIZE)
    (hposition : 0 ≤ position ∧ position + response.ids.length < 2 ^ 31) :
    (list_mailbox_pages methods (fuel + 1) position listing).run session =
      (list_mailbox_pages methods fuel (position + response.ids.length) (listing.add response)).run asked := by
  rw [list_mailbox_pages, effects.run_bind_of_ok hquery]
  simp only [hverdict, asI32_of_le hlength]
  rw [if_pos ⟨by omega, hposition.2⟩]

/-- An undisturbed walk still has the first ids of the result when the next page comes. -/
theorem MailboxWalk.arrive {listing : Listing} {previous : Option (Exchange Mailbox)} {number : Nat}
    {response : QueryResponse} {page_size : Nat} {rest : List (Exchange Mailbox)}
    (hwalk : MailboxWalk history listing previous)
    (hchain : (previous.toList ++ .query number { window := .position listing.ids.length, limit := page_size } response ::
      rest).IsChain (Undisturbed history)) :
    Listing.Prefix listing.ids (history.listing (history.moment number)) ∧
      (response.total = none → listing.reported_total = none) := by
  cases previous with
  | none =>
    cases hwalk
    exact ⟨⟨List.nodup_nil, fun id => by simp [Listing.begin]⟩, fun _ => rfl⟩
  | some exchange =>
    cases exchange with
    | changes => exact hwalk.elim
    | get => exact hwalk.elim
    | query earlier request before =>
      obtain ⟨hids, htotal⟩ := hwalk
      obtain ⟨⟨hgiven, hsame⟩, _⟩ := List.isChain_cons_cons.mp hchain
      refine ⟨⟨hids.nodup, fun id => ?_⟩, fun hnone => htotal (hgiven hnone)⟩
      rw [hids.mem_iff]
      exact hsame listing.ids.length rfl id

/-- A page moves an undisturbed walk on. -/
theorem MailboxWalk.next {listing : Listing} {number : Nat} {request : QueryRequest} {response : QueryResponse}
    {limit : Nat} (hids : Listing.Prefix listing.ids (history.listing (history.moment number)))
    (hgiven : response.total = none → listing.reported_total = none)
    (hpage : response.ids = ((history.listing (history.moment number)).drop listing.ids.length).take limit) :
    (listing.add response).ids.length = listing.ids.length + response.ids.length ∧
      MailboxWalk history (listing.add response) (some (.query number request response)) := by
  obtain ⟨hadded, hextended⟩ := hids.extend (history.nodup _) _ hpage
  have hadded : (listing.add response).ids = listing.ids ++ response.ids := hadded
  rw [← hadded] at hextended
  refine ⟨by rw [hadded, List.length_append], hextended, fun hnone => ?_⟩
  exact Option.or_eq_none_iff.mpr ⟨hnone, hgiven hnone⟩

/-- A conforming server's mailbox listing that counts as complete is exact when
    its pages are undisturbed and none came capped at nothing before any total. -/
theorem mailbox_walk_exact (hconforms : history.Conforms methods) {fuel : Nat} {position : Int} {listing : Listing}
    {session after : Session Mailbox} {ids : List String}
    (hrun : (list_mailbox_pages methods fuel position listing).run session = .ok (ids, true) after) :
    ∃ log, Exchanged methods session after log ∧
      ∀ previous, position = listing.ids.length → MailboxWalk history listing previous →
        (previous.toList ++ log).IsChain (Undisturbed history) →
        (listing.reported_total = none → ¬ CappedBlind history log) → ExactAt history session.sent after.sent ids := by
  induction fuel generalizing session position listing with
  | zero => cases hrun
  | succ fuel ih =>
    obtain ⟨response, asked, hquery, hnext⟩ := effects.run_bind_eq_ok_iff.mp hrun
    have hasked := send_query_ok hquery
    obtain ⟨_, hanswer⟩ := hasked.answered.1
    obtain ⟨_, htotal, _, _, hlimit, _⟩ := hconforms.query hanswer
    have hstart : History.windowStart (history.listing (history.moment session.sent)) (.position listing.ids.length) =
        some listing.ids.length := by simp [History.windowStart]
    cases hverdict : listing.verdict FULL_SNAPSHOT_MAILBOX_QUERY_PAGE_SIZE response with
    | some complete =>
      simp only [hverdict] at hnext
      cases hnext
      refine ⟨_, hasked, ?_⟩
      rintro previous rfl hwalk hchain hblind
      obtain ⟨hids, hgiven⟩ := hwalk.arrive hchain
      have hsize : 0 < FULL_SNAPSHOT_MAILBOX_QUERY_PAGE_SIZE := by decide
      refine ⟨session.sent, le_rfl, by rw [hasked.sent_eq]; exact Nat.lt_succ_self _, ?_⟩
      refine Listing.verdict_exact hids (history.nodup _) hsize (hconforms.page hanswer hstart) ?_ ?_ hverdict
      · intro total hreported
        obtain hnew | ⟨hnone, hold⟩ := Option.or_eq_some_iff.mp hreported
        · exact htotal total hnew
        · rw [hgiven hnone] at hold
          cases hold
      · intro hreported hcapped
        obtain ⟨hnone, hbefore⟩ := Option.or_eq_none_iff.mp hreported
        by_contra hshort
        exact hblind hbefore ⟨hnone, Or.inl ⟨hcapped, _, hstart, Nat.not_le.mp hshort⟩⟩
    | none =>
      simp only [hverdict] at hnext
      split_ifs at hnext with hbound
      · obtain ⟨log, hlog, hexact⟩ := ih hnext
        refine ⟨_, hasked.trans hlog, ?_⟩
        rintro previous rfl hwalk hchain hblind
        obtain ⟨hids, hgiven⟩ := hwalk.arrive hchain
        have hpage := hconforms.page hanswer hstart
        have hshort : response.ids.length ≤ FULL_SNAPSHOT_MAILBOX_QUERY_PAGE_SIZE := by
          rw [hpage, List.length_take]
          exact (min_le_left _ _).trans hlimit
        obtain ⟨hlength, hmoved⟩ := MailboxWalk.next hids hgiven hpage
        have hposition : (listing.ids.length : Int) + asI32 response.ids.length = (listing.add response).ids.length := by
          rw [asI32_of_le hshort, hlength]
          rfl
        have hlater : ([Exchange.query session.sent _ response] ++ log).IsChain (Undisturbed history) :=
          hchain.right_of_append
        have hrest : (listing.add response).reported_total = none → ¬ CappedBlind history log := by
          intro hreported hcapped
          obtain ⟨hnone, hbefore⟩ := Option.or_eq_none_iff.mp hreported
          exact hblind hbefore ⟨hnone, Or.inr hcapped⟩
        obtain ⟨number, hfirst, hlast, hnumber⟩ := hexact (some _) hposition hmoved hlater hrest
        refine ⟨number, ?_, hlast, hnumber⟩
        rw [hasked.sent_eq] at hfirst
        exact Nat.le_of_succ_le hfirst
      · cases hnext

end Mailboxes

end posthaste.engine
