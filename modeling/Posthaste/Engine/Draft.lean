import Posthaste.Engine.Mutation

open object_set effects posthaste.model

namespace posthaste.engine

variable {Mail : Type}

/-- The creation id of a draft's save. It holds for its one request, so a repeated save makes another copy. -/
def draft_create_id (idempotency_key : String) : String :=
  let sanitized := String.ofList (idempotency_key.toList.filter fun c => c.isAlphanum || c = '-' || c = '_')
  s!"phdraft-{sanitized}-email"

/-- What a destroy that was answered comes to. A message already gone is fine on a redelivery only. -/
def read_destroyed (idempotent_redelivery : Bool) (message_id : MessageId) (destroyed : Option (Except SetError Unit)) :
    Except GatewayError Unit :=
  match destroyed with
  | some (.error error) =>
    if idempotent_redelivery ∧ error.error = .NotFound then .ok () else .error (map_gateway_error (.Set error.text))
  | outcome => (outcomeOf message_id outcome).mapError map_gateway_error

def read_replaced (idempotent_redelivery : Bool) (replace : Option MessageId) (destroyed : Option (Except SetError Unit)) :
    Except GatewayError Unit :=
  match replace with
  | none => .ok ()
  | some replace => read_destroyed idempotent_redelivery replace destroyed

def read_saved (idempotent_redelivery : Bool) (replace : Option MessageId) (idempotency_key : String)
    (response : Answer String SetError) : Except GatewayError MessageId := do
  let new_id ← (outcomeOf (draft_create_id idempotency_key) response.created).mapError map_gateway_error
  read_replaced idempotent_redelivery replace response.destroyed
  return new_id

/-- One delivery of a save. `prepared` is the message the lookups and uploads before the request compose. -/
structure SaveTry (Mail : Type) where
  prepared : Except GatewayError Mail
  idempotent_redelivery : Bool
  delivery : Delivery

/-- The messages of the account. -/
abbrev Drafting (Mail α : Type) := EStateM GatewayError (Collection String Mail) α

variable (server : Server) (replace : Option MessageId) (idempotency_key : String)

def save_draft (save : SaveTry Mail) : Drafting Mail MessageId :=
  match save.prepared with
  | .error error => throw error
  | .ok email => do
    let response ← send_set server none ⟨some email, none, replace⟩ save.delivery
    match read_saved save.idempotent_redelivery replace idempotency_key response with
    | .ok new_id => return new_id
    | .error error => throw error

namespace SaveTry

variable (save : SaveTry Mail)

/-- The request reached the server, with this decision on the message it carried. -/
def carried : Option (Mail × Verdict SetError) :=
  match save.prepared, save.delivery.verdict with
  | .ok email, some verdict => some (email, verdict)
  | _, _ => none

/-- The copy the server made. -/
def made : Option Mail := save.carried.bind fun carried => if carried.2.create.isSome then none else some carried.1

/-- The server destroyed the replaced version, if it held it. -/
def destroys : Bool := save.carried.any fun carried => carried.2.destroy.isNone

/-- The server calls nothing missing that it holds. -/
def Honest : Prop := ∀ verdict error, save.delivery.verdict = some verdict → verdict.destroy = some error →
  error.error ≠ .NotFound

end SaveTry

def delete_draft (message_id : MessageId) (idempotent_redelivery : Bool) (delivery : Delivery) : Drafting Mail Unit := do
  let response ← send_set server none ⟨none, none, some message_id⟩ delivery
  match read_destroyed idempotent_redelivery message_id response.destroyed with
  | .ok _ => return ()
  | .error error => throw error

/-- What the server holds after some deliveries of a save. -/
def saved (mailbox : Collection String Mail) (saves : List (SaveTry Mail)) : Collection String Mail :=
  saves.foldl (fun mailbox save => final ((save_draft server replace idempotency_key save).run mailbox)) mailbox

/-- What the server holds after some deliveries of a discard, each with the flag it was sent with. -/
def discarded (message_id : MessageId) (mailbox : Collection String Mail) (tries : List (Bool × Delivery)) :
    Collection String Mail :=
  tries.foldl (fun mailbox sent => final ((delete_draft server message_id sent.1 sent.2).run mailbox)) mailbox

/-- The server destroyed the message, if it held it. -/
def Delivery.destroys (delivery : Delivery) : Bool := delivery.verdict.any fun verdict => !verdict.destroy.isSome

/-- Nothing is left of a draft: neither the version under its id nor a later copy. -/
def Lost (replaced : MessageId) (before after : Collection String Mail) : Prop :=
  after.find replaced = none ∧ ∀ held ∈ after.objects.rows, held.1 ∈ before.given

section Runs

variable {server : Server} {replace : Option MessageId} {idempotency_key : String} {before middle after : Collection String Mail}
  {save : SaveTry Mail} {first second : Bool} {these those : List Mail}

/-- The replaced version is gone or not, and copies came after everything else. -/
structure Saves (replace : Option MessageId) (before after : Collection String Mail) (destroyed : Bool) (made : List Mail) :
    Prop where
  rows : ∃ copies : List (String × Mail), copies.map Prod.snd = made ∧ (∀ copy ∈ copies, copy.1 ∉ before.given) ∧
    after.objects.rows = before.objects.rows.filter (fun held => !(destroyed && replace = some held.1)) ++ copies
  given : before.given ⊆ after.given

theorem Saves.refl (mailbox : Collection String Mail) : Saves replace mailbox mailbox false [] where
  rows := ⟨[], rfl, fun copy hcopy => absurd hcopy List.not_mem_nil, by simp⟩
  given := List.Subset.refl _

theorem Saves.trans (hgiven : ∀ id, replace = some id → id ∈ before.given) (hfirst : Saves replace before middle first these)
    (hsecond : Saves replace middle after second those) : Saves replace before after (first || second) (these ++ those) := by
  obtain ⟨copies, hmade, hfresh, hrows⟩ := hfirst.rows
  obtain ⟨others, hmade', hfresh', hrows'⟩ := hsecond.rows
  refine ⟨⟨copies ++ others, ?_, ?_, ?_⟩, List.Subset.trans hfirst.given hsecond.given⟩
  · rw [List.map_append, hmade, hmade']
  · intro copy hcopy
    rcases List.mem_append.mp hcopy with hold | hnew
    · exact hfresh copy hold
    · exact fun hmem => hfresh' copy hnew (hfirst.given hmem)
  · have hkept : copies.filter (fun held => !(second && replace = some held.1)) = copies := by
      refine List.filter_eq_self.mpr fun copy hcopy => ?_
      have hne : replace ≠ some copy.1 := fun hreplace => hfresh copy hcopy (hgiven copy.1 hreplace)
      simp [hne]
    rw [hrows', hrows, List.filter_append, hkept, List.filter_filter, List.append_assoc]
    refine congrArg (· ++ (copies ++ others)) (List.filter_congr fun held _ => ?_)
    cases first <;> cases second <;> simp

theorem saves_create (minting : Minting String) (refused : Option SetError) (email : Mail) :
    Saves replace before (before.create minting refused email).2 false (if refused.isSome then [] else [email]) where
  rows := by
    refine ⟨if refused.isSome then [] else [(minting.mint before.given, email)], ?_, ?_, ?_⟩
    · split_ifs <;> rfl
    · split_ifs
      · exact fun copy hcopy => absurd hcopy List.not_mem_nil
      · intro copy hcopy
        rw [List.mem_singleton.mp hcopy]
        exact minting.fresh before.given
    · rw [Collection.rows_create]
      simp
  given := Collection.given_create

theorem saves_destroy (absent : SetError) (refused : Option SetError) (id : String) :
    Saves (some id) before (before.destroy absent refused id).2 refused.isNone [] where
  rows := by
    refine ⟨[], rfl, fun copy hcopy => absurd hcopy List.not_mem_nil, ?_⟩
    rw [Collection.rows_destroy, List.append_nil]
    cases refused with
    | some error => simp
    | none =>
      refine List.filter_congr fun held _ => ?_
      simp [eq_comm]
  given := by rw [Collection.given_destroy]; exact List.Subset.refl _

theorem saves_set (server : Server) (email : Mail) (verdict : Verdict SetError) (hgiven : ∀ id, replace = some id → id ∈ before.given) :
    Saves replace before (before.set server.minting server.absent ⟨some email, none, replace⟩ verdict).2
      verdict.destroy.isNone (if verdict.create.isSome then [] else [email]) := by
  have hcreate : Saves replace before (before.create server.minting verdict.create email).2 false
    (if verdict.create.isSome then [] else [email]) := saves_create _ _ _
  cases replace with
  | none =>
    obtain ⟨copies, hmade, hfresh, hrows⟩ := hcreate.rows
    refine ⟨⟨copies, hmade, hfresh, hrows.trans ?_⟩, hcreate.given⟩
    simp
  | some id =>
    have hboth := hcreate.trans hgiven (saves_destroy server.absent verdict.destroy id)
    rw [List.append_nil, Bool.false_or] at hboth
    exact hboth

theorem final_save_draft {mailbox : Collection String Mail} :
    final ((save_draft server replace idempotency_key save).run mailbox) =
      save.carried.elim mailbox fun carried =>
        (mailbox.set server.minting server.absent ⟨some carried.1, none, replace⟩ carried.2).2 := by
  obtain ⟨prepared, idempotent_redelivery, delivery⟩ := save
  cases prepared with
  | error error => rfl
  | ok email =>
    refine (final_bind_of_kept fun response state => ?_).trans ?_
    · cases read_saved idempotent_redelivery replace idempotency_key response with
      | ok new_id => rfl
      | error error => rfl
    · rw [final_send_set]
      cases delivery with
      | failed error => rfl
      | unanswered verdict error => rfl
      | answered verdict => rfl

theorem saves_save (server : Server) (idempotency_key : String) (save : SaveTry Mail)
    (hgiven : ∀ id, replace = some id → id ∈ before.given) :
    Saves replace before (final ((save_draft server replace idempotency_key save).run before)) save.destroys
      save.made.toList := by
  rw [final_save_draft]
  unfold SaveTry.destroys SaveTry.made
  cases save.carried with
  | none => exact Saves.refl before
  | some carried =>
    have hset := saves_set server carried.1 carried.2 hgiven
    cases hcreate : carried.2.create with
    | none =>
      rw [hcreate] at hset
      simpa [hcreate] using hset
    | some error =>
      rw [hcreate] at hset
      simpa [hcreate] using hset

theorem saves_saved (hgiven : ∀ id, replace = some id → id ∈ before.given) (saves : List (SaveTry Mail)) :
    Saves replace before (saved server replace idempotency_key before saves) (saves.any (·.destroys))
      (saves.filterMap (·.made)) := by
  induction saves generalizing before with
  | nil => exact Saves.refl before
  | cons save saves ih =>
    have hsave := saves_save server idempotency_key save hgiven
    have hrest := hsave.trans hgiven (ih fun id hid => hsave.given (hgiven id hid))
    have hmade : (save :: saves).filterMap (·.made) = save.made.toList ++ saves.filterMap (·.made) := by
      rw [List.filterMap_cons]
      cases save.made <;> rfl
    rw [hmade, List.any_cons]
    exact hrest

/-- A destroy that reads as done left nothing under the id. -/
theorem find_of_read_destroyed {absent : SetError} {refused : Option SetError} {id : String} {idempotent_redelivery : Bool}
    (hhonest : ∀ error, refused = some error → error.error ≠ .NotFound)
    (hread : read_destroyed idempotent_redelivery id (some (before.destroy absent refused id).1) = .ok ()) :
    (before.destroy absent refused id).2.find id = none := by
  cases refused with
  | none => exact Collection.find_of_filtered Collection.rows_destroy
  | some error =>
    cases hfind : before.find id with
    | none =>
      rw [Collection.destroy_of_none hfind]
      exact hfind
    | some email =>
      have hdestroy : before.destroy absent (some error) id = (.error error, before) := by
        unfold Collection.destroy
        rw [hfind]
      have hunread : ¬ (idempotent_redelivery ∧ error.error = .NotFound) := fun hboth => hhonest error rfl hboth.2
      rw [hdestroy] at hread
      simp only [read_destroyed, if_neg hunread] at hread
      cases hread

theorem read_saved_ok {idempotent_redelivery : Bool} {response : Answer String SetError} {new_id : MessageId}
    (hread : read_saved idempotent_redelivery replace idempotency_key response = .ok new_id) :
    outcomeOf (draft_create_id idempotency_key) response.created = .ok new_id ∧
      read_replaced idempotent_redelivery replace response.destroyed = .ok () := by
  unfold read_saved at hread
  cases hcreated : outcomeOf (draft_create_id idempotency_key) response.created with
  | error error =>
    rw [hcreated] at hread
    cases hread
  | ok created =>
    rw [hcreated] at hread
    cases hreplaced : read_replaced idempotent_redelivery replace response.destroyed with
    | error error =>
      rw [hreplaced] at hread
      cases hread
    | ok =>
      rw [hreplaced] at hread
      cases hread
      exact ⟨rfl, rfl⟩

theorem created_of_outcome {minting : Minting String} {refused : Option SetError} {email : Mail} {id new_id : String}
    (houtcome : outcomeOf id (some (before.create minting refused email).1) = .ok new_id) :
    refused = none ∧ new_id = minting.mint before.given := by
  cases refused with
  | some error => cases houtcome
  | none =>
    cases houtcome
    exact ⟨rfl, rfl⟩

/-- A save that succeeds was answered, and read its answer as done. -/
theorem answered_of_save_ok {new_id : MessageId}
    (hok : (save_draft server replace idempotency_key save).run before = .ok new_id after) :
    ∃ email verdict, save.carried = some (email, verdict) ∧ save.delivery.verdict = some verdict ∧
      after = (before.set server.minting server.absent ⟨some email, none, replace⟩ verdict).2 ∧
      read_saved save.idempotent_redelivery replace idempotency_key
        (before.set server.minting server.absent ⟨some email, none, replace⟩ verdict).1 = .ok new_id := by
  obtain ⟨prepared, idempotent_redelivery, delivery⟩ := save
  cases prepared with
  | error error => cases hok
  | ok email =>
    obtain ⟨response, middle, hsend, hrest⟩ := run_bind_eq_ok_iff.mp hok
    obtain ⟨verdict, hverdict, _, hset⟩ := send_set_ok hsend
    have hcarried : SaveTry.carried ⟨.ok email, idempotent_redelivery, delivery⟩ = some (email, verdict) := by
      unfold SaveTry.carried
      simp only [hverdict]
    refine ⟨email, verdict, hcarried, hverdict, ?_⟩
    rw [hset]
    cases hread : read_saved idempotent_redelivery replace idempotency_key response with
    | error error =>
      simp only [hread] at hrest
      cases hrest
    | ok saved_id =>
      simp only [hread] at hrest
      cases hrest
      exact ⟨rfl, rfl⟩

/-- A save that succeeds holds its copy under the id it returns, and has replaced what it was to replace. -/
theorem of_save_ok {new_id : MessageId} (hgiven : ∀ id, replace = some id → id ∈ before.given) (hhonest : save.Honest)
    (hok : (save_draft server replace idempotency_key save).run before = .ok new_id after) :
    (∃ email, save.made = some email ∧ after.find new_id = some email) ∧
      ∀ id, replace = some id → after.find id = none := by
  obtain ⟨email, verdict, hcarried, hverdict, rfl, hread⟩ := answered_of_save_ok hok
  obtain ⟨houtcome, hreplaced⟩ := read_saved_ok hread
  obtain ⟨hcreate, rfl⟩ := created_of_outcome houtcome
  have hmade : save.made = some email := by
    rw [SaveTry.made, hcarried, Option.bind_some, hcreate]
    rfl
  have hheld : (server.minting.mint before.given, email) ∈ (before.create server.minting verdict.create email).2.objects.rows := by
    rw [Collection.rows_create, hcreate]
    exact List.mem_append_right _ (List.mem_singleton.mpr rfl)
  cases replace with
  | none => exact ⟨⟨email, hmade, Collection.find_eq_some_iff.mpr hheld⟩, fun id hid => nomatch hid⟩
  | some replaced =>
    have hne : server.minting.mint before.given ≠ replaced := fun heq =>
      server.minting.fresh before.given (heq ▸ hgiven replaced rfl)
    constructor
    · refine ⟨email, hmade, Collection.find_eq_some_iff.mpr ?_⟩
      show _ ∈ (((before.create server.minting verdict.create email).2.destroy server.absent verdict.destroy
        replaced).2).objects.rows
      rw [Collection.rows_destroy]
      split_ifs
      · exact hheld
      · exact List.mem_filter.mpr ⟨hheld, decide_eq_true hne⟩
    · rintro id ⟨⟩
      exact find_of_read_destroyed (fun error herror => hhonest verdict error hverdict herror) hreplaced

/-- An undisturbed save succeeds: on a redelivery always, else where there is still something to replace. -/
theorem save_undisturbed {email : Mail} {idempotent_redelivery : Bool}
    (hheld : idempotent_redelivery = false → ∀ id, replace = some id → (before.find id).isSome) :
    ∃ after, (save_draft server replace idempotency_key ⟨.ok email, idempotent_redelivery, .answered .granted⟩).run before =
      .ok (server.minting.mint before.given) after := by
  have hread : read_saved idempotent_redelivery replace idempotency_key
      (before.set server.minting server.absent ⟨some email, none, replace⟩ .granted).1 =
        .ok (server.minting.mint before.given) := by
    cases replace with
    | none => rfl
    | some replaced =>
      let middle := before.add (server.minting.mint before.given) email
      show (do
        read_destroyed idempotent_redelivery replaced (some (middle.destroy server.absent none replaced).1)
        return server.minting.mint before.given) = _
      cases hfind : middle.find replaced with
      | some draft =>
        rw [Collection.destroy_granted hfind]
        rfl
      | none =>
        have hredelivered : idempotent_redelivery = true := by
          by_contra hfirst
          obtain ⟨draft, hdraft⟩ := Option.isSome_iff_exists.mp (hheld (Bool.eq_false_of_not_eq_true hfirst) replaced rfl)
          have hmem : (replaced, draft) ∈ (before.create server.minting (none : Option SetError) email).2.objects.rows := by
            rw [Collection.rows_create]
            exact List.mem_append_left _ (Collection.find_eq_some_iff.mp hdraft)
          cases hfind.symm.trans (Collection.find_eq_some_iff.mpr hmem)
        rw [Collection.destroy_of_none hfind, hredelivered]
        rfl
  refine ⟨(before.set server.minting server.absent ⟨some email, none, replace⟩ .granted).2, ?_⟩
  refine (run_bind_of_ok send_set_answered).trans ?_
  simp only [hread]
  rfl

theorem Saves.lost_iff {replaced : MessageId} {destroyed : Bool} {made : List Mail}
    (hsaves : Saves (some replaced) before after destroyed made) (hheld : (before.find replaced).isSome) :
    Lost replaced before after ↔ destroyed = true ∧ made = [] := by
  obtain ⟨copies, rfl, hfresh, hrows⟩ := hsaves.rows
  obtain ⟨draft, hdraft⟩ := Option.isSome_iff_exists.mp hheld
  have hmem := Collection.find_eq_some_iff.mp hdraft
  constructor
  · rintro ⟨hfind, hold⟩
    constructor
    · by_contra hkept
      have hafter : (replaced, draft) ∈ after.objects.rows := by
        rw [hrows]
        refine List.mem_append_left _ (List.mem_filter.mpr ⟨hmem, ?_⟩)
        rw [Bool.eq_false_of_not_eq_true hkept]
        rfl
      rw [Collection.find_eq_some_iff.mpr hafter] at hfind
      cases hfind
    · cases copies with
      | nil => rfl
      | cons copy copies =>
        refine absurd (hold copy ?_) (hfresh copy List.mem_cons_self)
        rw [hrows]
        exact List.mem_append_right _ List.mem_cons_self
  · rintro ⟨rfl, hnone⟩
    rw [List.map_eq_nil_iff.mp hnone, List.append_nil] at hrows
    constructor
    · refine Collection.find_of_filtered (hrows.trans (List.filter_congr fun held _ => ?_))
      simp [eq_comm]
    · intro held hafter
      rw [hrows] at hafter
      exact before.held_given held (List.mem_filter.mp hafter).1

/-- What any deliveries of one save do to the account: each that the server carries out adds its copy, for the server
    does not remember a creation id, and the replaced version goes once. A delivery that succeeds has done both. The
    draft is lost exactly where the server destroyed the one and refused every other. -/
theorem draft_saves_exact (server : Server) (idempotency_key : String) (replace : Option MessageId)
    (mailbox : Collection String Mail) (saves : List (SaveTry Mail)) (hgiven : ∀ id, replace = some id → id ∈ mailbox.given) :
    let later := saved server replace idempotency_key mailbox saves
    (∃ copies : List (String × Mail), copies.map Prod.snd = saves.filterMap (·.made) ∧
      (∀ copy ∈ copies, copy.1 ∉ mailbox.given) ∧
      later.objects.rows =
        mailbox.objects.rows.filter (fun held => !(saves.any (·.destroys) && replace = some held.1)) ++ copies) ∧
    (∀ save new_id after, save.Honest → (save_draft server replace idempotency_key save).run later = .ok new_id after →
      (∃ email, save.made = some email ∧ after.find new_id = some email) ∧ ∀ id, replace = some id → after.find id = none) ∧
    (∀ email, ∃ new_id after,
      (save_draft server replace idempotency_key ⟨.ok email, true, .answered .granted⟩).run later = .ok new_id after) ∧
    ∀ replaced, replace = some replaced → (mailbox.find replaced).isSome →
      (Lost replaced mailbox later ↔ saves.any (·.destroys) = true ∧ ∀ save ∈ saves, save.made = none) := by
  intro later
  have hsaves : Saves replace mailbox later (saves.any (·.destroys)) (saves.filterMap (·.made)) := saves_saved hgiven saves
  have hlater : ∀ id, replace = some id → id ∈ later.given := fun id hid => hsaves.given (hgiven id hid)
  refine ⟨hsaves.rows, fun save new_id after hhonest hok => of_save_ok hlater hhonest hok, fun email => ?_, ?_⟩
  · exact ⟨_, save_undisturbed fun hfirst => nomatch hfirst⟩
  · rintro replaced rfl hheld
    rw [hsaves.lost_iff hheld, List.filterMap_eq_nil_iff]

/-- Each new id is longer than the ids so far together. -/
def lengthening : Minting String where
  mint given := String.ofList (List.replicate ((given.map String.length).sum + 1) 'm')
  fresh given hgiven := by
    have hlength : String.length _ ∈ given.map String.length := List.mem_map_of_mem hgiven
    have hle := List.le_sum_of_mem hlength
    simp at hle

/-- A mail over the quota, its destroy carried out all the same, and the draft is gone. -/
theorem draft_saves_exact_overQuota :
    Lost "d1"
      (⟨⟨[("d1", "hello")], by decide⟩, ["d1"], 0, by decide⟩ : Collection String String)
      (saved ⟨lengthening, "not found", "invalid patch", toString⟩ (some "d1") "op-1"
        ⟨⟨[("d1", "hello")], by decide⟩, ["d1"], 0, by decide⟩
        [⟨.ok "hello, world", false, .answered ⟨some ⟨.Other "overQuota", "over quota"⟩, none, none⟩⟩]) :=
  ((draft_saves_exact ⟨lengthening, "not found", "invalid patch", toString⟩ "op-1" (some "d1")
    ⟨⟨[("d1", "hello")], by decide⟩, ["d1"], 0, by decide⟩
    [⟨.ok "hello, world", false, .answered ⟨some ⟨.Other "overQuota", "over quota"⟩, none, none⟩⟩] (by decide)).2.2.2
      "d1" rfl (by decide)).mpr (by decide)

theorem rows_delete_draft {message_id : MessageId} {idempotent_redelivery : Bool} {delivery : Delivery} :
    (final ((delete_draft server message_id idempotent_redelivery delivery).run before)).objects.rows =
      if delivery.destroys then before.objects.rows.filter fun held => held.1 ≠ message_id else before.objects.rows := by
  have hkept : final ((delete_draft server message_id idempotent_redelivery delivery).run before) =
      final ((send_set server none ⟨none, none, some message_id⟩ delivery).run before) := by
    refine final_bind_of_kept fun response state => ?_
    cases read_destroyed idempotent_redelivery message_id response.destroyed with
    | ok => rfl
    | error error => rfl
  rw [hkept]
  exact rows_send_set fun verdict => Collection.rows_destroy

theorem rows_discarded {message_id : MessageId} (tries : List (Bool × Delivery)) :
    (discarded server message_id before tries).objects.rows =
      if tries.any (·.2.destroys) then before.objects.rows.filter fun held => held.1 ≠ message_id
      else before.objects.rows := by
  induction tries generalizing before with
  | nil => rfl
  | cons sent tries ih =>
    unfold discarded at ih ⊢
    rw [List.foldl_cons, ih, rows_delete_draft, List.any_cons]
    cases sent.2.destroys with
    | false => rfl
    | true =>
      rw [if_pos rfl, List.filter_filter]
      simp only [Bool.and_self, ite_self, Bool.true_or, if_true]

/-- An undisturbed discard destroys what it finds. If it finds nothing, only a redelivery succeeds. -/
theorem discard_undisturbed {message_id : MessageId} {idempotent_redelivery : Bool} :
    (∃ after, (delete_draft server message_id idempotent_redelivery (.answered .granted)).run before = .ok () after) ↔
      idempotent_redelivery = true ∨ (before.find message_id).isSome := by
  have hrun : (delete_draft server message_id idempotent_redelivery (.answered .granted)).run before = _ :=
    run_bind_of_ok send_set_answered
  rw [hrun]
  cases hfind : before.find message_id with
  | some draft =>
    rw [set_destroy (Collection.destroy_granted hfind)]
    exact ⟨fun _ => Or.inr rfl, fun _ => ⟨_, rfl⟩⟩
  | none =>
    rw [set_destroy (Collection.destroy_of_none hfind)]
    cases idempotent_redelivery with
    | true => exact ⟨fun _ => Or.inl rfl, fun _ => ⟨_, rfl⟩⟩
    | false =>
      constructor
      · rintro ⟨after, hafter⟩
        cases hafter
      · rintro (hredelivered | hheld)
        · cases hredelivered
        · cases hheld

/-- A discard is delivered at least once: after any tries an undisturbed one leaves all messages but the draft. As a
    redelivery it succeeds, as the user's own it fails once the draft is gone. -/
theorem draft_discards_redelivered (server : Server) (message_id : MessageId) (mailbox : Collection String Mail)
    (tries : List (Bool × Delivery)) :
    let discard := fun idempotent_redelivery =>
      (delete_draft server message_id idempotent_redelivery (.answered .granted)).run
        (discarded server message_id mailbox tries)
    (∀ idempotent_redelivery, (final (discard idempotent_redelivery)).objects.rows =
      mailbox.objects.rows.filter fun held => held.1 ≠ message_id) ∧
    (∃ after, discard true = .ok () after) ∧
    ((∃ after, discard false = .ok () after) ↔
      (mailbox.find message_id).isSome ∧ tries.all fun sent => !sent.2.destroys) := by
  intro discard
  refine ⟨fun idempotent_redelivery => ?_, discard_undisturbed.mpr (Or.inl rfl), discard_undisturbed.trans ?_⟩
  · refine rows_delete_draft.trans ((if_pos rfl).trans ?_)
    rw [rows_discarded]
    split_ifs
    · rw [List.filter_filter]
      simp only [Bool.and_self]
    · rfl
  · have hrows : (discarded server message_id mailbox tries).objects.rows = _ := rows_discarded tries
    rw [List.all_eq_not_any_not]
    simp only [Bool.not_not, Bool.false_eq_true, false_or]
    cases hdone : tries.any (·.2.destroys) with
    | false =>
      rw [hdone, if_neg Bool.false_ne_true] at hrows
      rw [Collection.find_congr hrows]
      simp
    | true =>
      rw [hdone, if_pos rfl] at hrows
      rw [Collection.find_of_filtered hrows]
      simp

end Runs

end posthaste.engine
