import Posthaste.Engine.Draft

open serde json_patch object_set effects posthaste.model posthaste.service

namespace posthaste.model

inductive MailboxRole where
  | Inbox
  | Archive
  | Drafts
  | Sent
  | Junk
  | Trash
  | Snooze
  deriving DecidableEq

namespace MailboxRole

def parse : String → Option MailboxRole
  | "inbox" => some .Inbox
  | "archive" => some .Archive
  | "drafts" => some .Drafts
  | "sent" => some .Sent
  | "junk" => some .Junk
  | "trash" => some .Trash
  | "snooze" => some .Snooze
  | _ => none

end MailboxRole

end posthaste.model

namespace posthaste.engine

section Mailboxes

/-- What a mailbox holds of what the calls below change. -/
structure MailboxObject where
  name : String
  role : Option String
  deriving DecidableEq

abbrev Mailboxes := Collection String MailboxObject

abbrev Managing := EStateM GatewayError Mailboxes MutationOutcome

def validate_mailbox_role (role : Option String) : Except GatewayError Unit :=
  match role with
  | none => .ok ()
  | some value =>
    if (MailboxRole.parse value).isSome then .ok () else .error (.Rejected s!"unsupported mailbox role: {value}")

variable (server : Server)

def mailbox_mutation_outcome (mailbox_id : MailboxId) (response : Answer String SetError) :
    Except GatewayError MutationOutcome := do
  (outcomeOf mailbox_id response.updated).mapError map_gateway_error
  return { message := none, cursor := some ⟨.Mailbox, server.state response.version⟩ }

/-- The update of one mailbox, and what its answer comes to. -/
def update_mailbox (mailbox_id : MailboxId) (expected_state : Option String) (patch : MailboxObject → MailboxObject)
    (delivery : Delivery) : Managing := do
  let response ← send_set server expected_state ⟨none, some (mailbox_id, fun mailbox => .ok (patch mailbox)), none⟩ delivery
  match mailbox_mutation_outcome server mailbox_id response with
  | .ok outcome => return outcome
  | .error error => throw error

def rename_mailbox (mailbox_id : MailboxId) (expected_state : Option String) (name : String) : Delivery → Managing :=
  update_mailbox server mailbox_id expected_state fun mailbox => { mailbox with name }

def assign_role (role : Option String) (mailbox : MailboxObject) : MailboxObject := { mailbox with role }

/-- How the two requests of a role's move end, and what others do to the mailboxes in between. -/
structure RoleEnds where
  cleared : Delivery
  others : Mailboxes → Mailboxes
  assigned : Delivery

def set_mailbox_role (mailbox_id : MailboxId) (expected_state role : Option String) (clear_role_from : Option MailboxId)
    (ends : RoleEnds) : Managing :=
  match validate_mailbox_role role with
  | .error error => throw error
  | .ok _ =>
    match clear_role_from.filter (· ≠ mailbox_id) with
    | none => update_mailbox server mailbox_id expected_state (assign_role role) ends.assigned
    | some clear_role_from => do
      let outcome ← update_mailbox server clear_role_from expected_state (assign_role none) ends.cleared
      modify ends.others
      update_mailbox server mailbox_id (outcome.cursor.map (·.state)) (assign_role role) ends.assigned

/-- Of the mailboxes in the store, another that has the role. -/
def role_owner (listed : List (MailboxId × Option String)) (mailbox_id : MailboxId) (role : Option String) :
    Option MailboxId :=
  match role with
  | some role => (listed.find? fun mailbox => mailbox.1 ≠ mailbox_id && mailbox.2 = some role).map Prod.fst
  | none => none

/-- No two mailboxes have the same role. -/
def RolesUnique (mailboxes : Mailboxes) : Prop :=
  ∀ first ∈ mailboxes.objects.rows, ∀ second ∈ mailboxes.objects.rows,
    first.2.role = second.2.role → first.2.role ≠ none → first.1 = second.1

variable {server : Server} {before after mailboxes : Mailboxes} {id : String} {expected_state role : Option String}
  {patch : MailboxObject → MailboxObject} {delivery : Delivery} {outcome : MutationOutcome}

theorem final_update_mailbox : final ((update_mailbox server id expected_state patch delivery).run before) =
    final ((send_set server expected_state ⟨none, some (id, fun mailbox => .ok (patch mailbox)), none⟩ delivery).run
      before) := by
  refine final_bind_of_kept fun response served => ?_
  cases mailbox_mutation_outcome server id response with
  | ok outcome => rfl
  | error error => rfl

theorem update_mailbox_later :
    before.Later (final ((update_mailbox server id expected_state patch delivery).run before)) := by
  rw [final_update_mailbox, final_send_set_guarded]
  cases delivery.verdict with
  | none => exact Collection.later_refl before
  | some verdict =>
    rw [Option.elim_some]
    split_ifs
    · exact Collection.later_refl before
    · exact Collection.set_later

/-- The rows with one mailbox patched. -/
def patchedRows (id : String) (patch : MailboxObject → MailboxObject) (rows : List (String × MailboxObject)) :
    List (String × MailboxObject) :=
  rows.map fun held => if held.1 = id then (held.1, patch held.2) else held

/-- An update changes the one mailbox or nothing, and only in the state that is expected. -/
theorem update_mailbox_guarded (server : Server) (id : String) (expected_state : Option String)
    (patch : MailboxObject → MailboxObject) (delivery : Delivery) (before : Mailboxes) :
    final ((update_mailbox server id expected_state patch delivery).run before) = before ∨
      (∀ state, expected_state = some state → server.state before.version = state) ∧
        (final ((update_mailbox server id expected_state patch delivery).run before)).objects.rows =
          patchedRows id patch before.objects.rows := by
  rw [final_update_mailbox, final_send_set_guarded]
  cases delivery.verdict with
  | none => exact Or.inl rfl
  | some verdict =>
    rw [Option.elim_some]
    split_ifs with hmatch
    · exact Or.inl rfl
    · cases hrefused : verdict.update with
      | some error =>
        refine Or.inl ?_
        show (before.update server.absent verdict.update (id, fun mailbox => .ok (patch mailbox))).2 = before
        rw [hrefused]
        exact Collection.update_refused
      | none =>
        refine Or.inr ⟨state_of_matched hmatch, ?_⟩
        show (before.update server.absent verdict.update (id, fun mailbox => .ok (patch mailbox))).2.objects.rows = _
        rw [hrefused]
        exact Collection.rows_update

/-- A rename leaves every mailbox its role. -/
theorem rename_mailbox_roles {name : String} :
    (final ((rename_mailbox server id expected_state name delivery).run before)).objects.rows.map
        (fun held => (held.1, held.2.role)) =
      before.objects.rows.map fun held => (held.1, held.2.role) := by
  rcases update_mailbox_guarded server id expected_state (fun mailbox => { mailbox with name }) delivery before with
    hsame | ⟨_, hrows⟩
  · exact congrArg (fun mailboxes : Mailboxes => mailboxes.objects.rows.map _) hsame
  · refine (congrArg (List.map _) hrows).trans ?_
    unfold patchedRows
    rw [List.map_map]
    refine List.map_congr_left fun held _ => ?_
    rw [Function.comp_apply]
    split_ifs <;> rfl

theorem update_mailbox_ok (hok : (update_mailbox server id expected_state patch delivery).run before = .ok outcome after) :
    (∀ state, expected_state = some state → server.state before.version = state) ∧
      after.objects.rows = patchedRows id patch before.objects.rows ∧
      outcome.cursor = some ⟨.Mailbox, server.state after.version⟩ := by
  obtain ⟨response, middle, hsend, hrest⟩ := run_bind_eq_ok_iff.mp hok
  obtain ⟨verdict, _, hstate, hset⟩ := send_set_ok hsend
  cases hupdate : before.update server.absent verdict.update (id, fun mailbox => .ok (patch mailbox)) with
  | mk answer served =>
    rw [set_update hupdate] at hset
    cases hset
    cases answer with
    | error error => cases hrest
    | ok =>
      cases hrest
      refine ⟨hstate, ?_, rfl⟩
      have hgranted : verdict.update = none := Collection.granted_of_update hupdate
      have hrows : (before.update server.absent verdict.update (id, fun mailbox => .ok (patch mailbox))).2.objects.rows = _ :=
        Collection.rows_update
      rw [hupdate, hgranted] at hrows
      exact hrows

theorem RolesUnique.of_roles (hunique : RolesUnique before)
    (hroles : after.objects.rows.map (fun held => (held.1, held.2.role)) =
      before.objects.rows.map fun held => (held.1, held.2.role)) : RolesUnique after := by
  have hheld : ∀ held ∈ after.objects.rows, ∃ old ∈ before.objects.rows, (old.1, old.2.role) = (held.1, held.2.role) := by
    intro held hmem
    have hpair : (held.1, held.2.role) ∈ after.objects.rows.map fun held => (held.1, held.2.role) :=
      List.mem_map_of_mem hmem
    rw [hroles] at hpair
    exact List.mem_map.mp hpair
  intro first hfirst second hsecond hsame hsome
  obtain ⟨one, hone, hfirst⟩ := hheld first hfirst
  obtain ⟨two, htwo, hsecond⟩ := hheld second hsecond
  rw [Prod.mk.injEq] at hfirst hsecond
  rw [← hfirst.2] at hsame hsome
  rw [← hsecond.2] at hsame
  rw [← hfirst.1, ← hsecond.1]
  exact hunique one hone two htwo hsame hsome

theorem RolesUnique.assign (hunique : RolesUnique before)
    (hrows : after.objects.rows = patchedRows id (assign_role role) before.objects.rows)
    (hfree : ∀ held ∈ before.objects.rows, held.1 ≠ id → role ≠ none → held.2.role ≠ role) : RolesUnique after := by
  intro first hfirst second hsecond hsame hsome
  rw [hrows] at hfirst hsecond
  obtain ⟨one, hone, rfl⟩ := List.mem_map.mp hfirst
  obtain ⟨two, htwo, rfl⟩ := List.mem_map.mp hsecond
  by_cases hid : one.1 = id
  · rw [if_pos hid] at hsame hsome ⊢
    by_cases hid' : two.1 = id
    · rw [if_pos hid', hid, hid']
    · rw [if_neg hid'] at hsame
      exact absurd hsame.symm (hfree two htwo hid' hsome)
  · rw [if_neg hid] at hsame hsome ⊢
    by_cases hid' : two.1 = id
    · rw [if_pos hid'] at hsame
      have hrole : role ≠ none := fun hnone => hsome (hsame.trans hnone)
      exact absurd hsame (hfree one hone hid hrole)
    · rw [if_neg hid'] at hsame ⊢
      exact hunique one hone two htwo hsame hsome

/-- Taking a role away never makes two of them. -/
theorem RolesUnique.cleared (hunique : RolesUnique before) :
    RolesUnique (final ((update_mailbox server id expected_state (assign_role none) delivery).run before)) := by
  rcases update_mailbox_guarded server id expected_state (assign_role none) delivery before with hsame | ⟨_, hrows⟩
  · rw [hsame]
    exact hunique
  · exact hunique.assign hrows fun held _ _ hnone => absurd rfl hnone

variable {listed : List (MailboxId × Option String)} {mailbox_id : MailboxId} {held : String × MailboxObject}

theorem role_owner_ne {owner : MailboxId} (howner : role_owner listed mailbox_id role = some owner) : owner ≠ mailbox_id := by
  cases role with
  | none => cases howner
  | some role =>
    obtain ⟨pair, hfind, rfl⟩ := Option.map_eq_some_iff.mp howner
    have hpair := List.find?_some hfind
    simp only [Bool.and_eq_true, decide_eq_true_eq] at hpair
    exact hpair.1

/-- The store's owner of a role is the server's, where the store has what the server has. -/
theorem role_owner_iff (hlisted : ∀ id role, (id, role) ∈ listed ↔ ∃ name, (id, ⟨name, role⟩) ∈ mailboxes.objects.rows)
    (hunique : RolesUnique mailboxes) (hheld : held ∈ mailboxes.objects.rows) (hne : held.1 ≠ mailbox_id) :
    role_owner listed mailbox_id role = some held.1 ↔ role ≠ none ∧ held.2.role = role := by
  cases role with
  | none => exact ⟨(fun howner => nomatch howner), fun hnone => absurd rfl hnone.1⟩
  | some role =>
    constructor
    · intro howner
      obtain ⟨pair, hfind, hid⟩ := Option.map_eq_some_iff.mp howner
      have hpair := List.find?_some hfind
      simp only [Bool.and_eq_true, decide_eq_true_eq] at hpair
      obtain ⟨name, hrow⟩ := (hlisted pair.1 pair.2).mp (List.mem_of_find?_eq_some hfind)
      have hsame := Table.key_inj hrow hheld hid
      refine ⟨Option.some_ne_none role, ?_⟩
      rw [← hsame]
      exact hpair.2
    · rintro ⟨_, hrole⟩
      have hmem : (held.1, some role) ∈ listed := (hlisted held.1 (some role)).mpr ⟨held.2.name, hrole ▸ hheld⟩
      show (listed.find? _).map Prod.fst = some held.1
      cases hfind : listed.find? fun mailbox => mailbox.1 ≠ mailbox_id && mailbox.2 = some role with
      | none =>
        have hnot := List.find?_eq_none.mp hfind _ hmem
        simp [hne] at hnot
      | some pair =>
        have hpair := List.find?_some hfind
        simp only [Bool.and_eq_true, decide_eq_true_eq] at hpair
        obtain ⟨name, hrow⟩ := (hlisted pair.1 pair.2).mp (List.mem_of_find?_eq_some hfind)
        have hsame := hunique _ hrow held hheld (hpair.2.trans hrole.symm) (by rw [hpair.2]; exact Option.some_ne_none role)
        exact congrArg some hsame

/-- A server that tallies its states in strokes. -/
def tallying : Server := ⟨lengthening, "not found", "invalid patch", fun version => String.ofList (List.replicate version '|')⟩

end Mailboxes

end posthaste.engine
