import Posthaste.Imap.Sessions
import Posthaste.Library.Transition

open posthaste.model

namespace posthaste.imap

/-- A mailbox on the server, and what the store holds of it. -/
structure MailboxWorld where
  server : ServerMailbox
  stored : LocalMailbox

/-- A recorded MODSEQ certifies the rows: a message that did not change after it is
    held as the server shows it. -/
def MailboxWorld.Sound (world : MailboxWorld) : Prop :=
  ∀ state modseq, world.stored.state = some state → state.uid_validity = world.server.uid_validity →
    state.highest_modseq = some modseq → ∀ uid, world.server.modseq uid ≤ modseq →
      world.stored.row state.uid_validity uid = world.server.shown uid

/-- The server moves on, the store drops the mailbox, or a cycle syncs it. -/
inductive MailboxEvent where
  | change (after : ServerMailbox)
  | delete_mailbox
  | cycle (sync : MailboxSync) (after : ServerMailbox)

/-- The server moves during a cycle too, but a selected mailbox keeps its UIDVALIDITY. -/
structure MailboxSync.Possible (sync : MailboxSync) (before after : ServerMailbox) : Prop where
  planned : Later before sync.planned
  examined : Later sync.planned sync.examined
  found : (sync.examined :: sync.fetch.found).IsChain Changes
  closing : Later sync.closing after

def mailboxSystem : TransitionSystem MailboxWorld MailboxEvent where
  start world := world.stored = LocalMailbox.empty
  step world event next :=
    match event with
    | .change after => Later world.server after ∧ next = { world with server := after }
    | .delete_mailbox => next = { world with stored := LocalMailbox.empty }
    | .cycle sync after => sync.Possible world.server after ∧ next = { server := after, stored := sync.run world.stored }

section Condition

/-- The mailbox that decided what is known of a listed UID: the one its chunk was read
    from, or the searched one when the read found it marked deleted. -/
def listedAt (searched : ServerMailbox) (chunks : List (List ImapUid)) (reads : List ServerMailbox) (uid : ImapUid) :
    ServerMailbox :=
  match readOf chunks reads uid with
  | some server => if server.isDeleted uid then searched else server
  | none => searched

/-- The same for the rest of an interrupted snapshot. -/
def resumedAt (examined searched : ServerMailbox) (checkpoint : ImapUid) (chunks : List (List ImapUid))
    (reads : List ServerMailbox) (uid : ImapUid) : ServerMailbox :=
  if uid ≤ checkpoint then examined else listedAt searched chunks reads uid

/-- The same for a CONDSTORE delta, whose listing is older than its changes. -/
def deltaAt (searched changed : ServerMailbox) (chunks : List (List ImapUid)) (reads : List ServerMailbox)
    (uid : ImapUid) : ServerMailbox :=
  match readOf chunks reads uid with
  | some server => if (server.shown uid).isSome then server else searched
  | none => if (changed.shown uid).isSome then changed else searched

/-- No message changed between the answer about it and the MODSEQ of a fetched header. -/
def Undisturbed (headers : List ImapFetchedHeader) (answeredAt : ImapUid → ServerMailbox) (closing : ServerMailbox) :
    Prop :=
  ∀ header ∈ headers, ∀ modseq, header.modseq = some modseq → ∀ uid, closing.modseq uid ≤ modseq →
    (answeredAt uid).modseq uid = closing.modseq uid

namespace MailboxSync

variable (sync : MailboxSync) (stored : LocalMailbox)

/-- A listing has a MODSEQ to record. -/
def Marked (headers : List ImapFetchedHeader) : Prop :=
  sync.examined_modseq = true ∨ ∃ header ∈ headers, header.modseq ≠ none

/-- The stored UIDVALIDITY is the one the fetch finds. -/
def SameIncarnation : Prop := ∀ state, stored.state = some state → state.uid_validity = sync.examined.uid_validity

/-- The rows below the checkpoint, which are not fetched again, are as the EXAMINE finds them. -/
def PrefixCurrent : Prop :=
  ∀ uid ≤ checkpoint stored, stored.row sync.examined.uid_validity uid = sync.examined.shown uid

/-- Every stored row is in the listing, or may be dropped. -/
def ListingApplied (listed : List ImapUid) (allowed : Bool) : Prop :=
  allowed = true ∨ ∀ uid, stored.row sync.examined.uid_validity uid ≠ none → uid ∈ listed

/-- What a cycle must meet for its MODSEQ to certify the rows. -/
def Meets : Prop :=
  match sync.fetch with
  | .stream searched reads =>
    let headers := readChunks sync.fetch_modseq (pending stored searched) reads
    (pending stored searched).length ≤ reads.length →
      (sync.Marked headers → sync.PrefixCurrent stored) ∧
        (sync.examined_modseq = true ∨ Undisturbed headers
          (resumedAt sync.examined searched (checkpoint stored) (pending stored searched) reads) sync.closing)
  | .full searched reads allowed =>
    let headers := readChunks sync.fetch_modseq (listed searched) reads
    (listed searched).length ≤ reads.length →
      (sync.Marked headers → sync.ListingApplied stored (headers.map (·.uid)) allowed) ∧
        (sync.examined_modseq = true ∨ Undisturbed headers (listedAt searched (listed searched) reads) sync.closing)
  | .qresync _ => sync.SameIncarnation stored
  | .fallback searched reads allowed =>
    let headers := readChunks true (listed searched) reads
    (listed searched).length ≤ reads.length →
      sync.SameIncarnation stored ∧ sync.ListingApplied stored (headers.map (·.uid)) allowed ∧
        Undisturbed headers (listedAt searched (listed searched) reads) sync.closing
  | .condstore searched changed reads allowed =>
    ∀ since_modseq after_uid, sync.plan stored = .CondstoreDelta since_modseq after_uid →
      let chunks := missed searched changed since_modseq after_uid
      let headers := changed.changedSince since_modseq ++ readChunks true chunks reads
      chunks.length ≤ reads.length →
        sync.SameIncarnation stored ∧
          sync.ListingApplied stored (searched.undeleted ++ headers.map (·.uid)) allowed ∧
            Undisturbed headers (deltaAt searched changed chunks reads) sync.closing

end MailboxSync

end Condition

/-- The invariant of every run. -/
structure MailboxWorld.Consistent (world : MailboxWorld) : Prop where
  unlisted : world.stored.state = none → ∀ uid_validity uid, world.stored.row uid_validity uid = none
  validity : ∀ state, world.stored.state = some state → state.uid_validity ≤ world.server.uid_validity
  future : ∀ state, world.stored.state = some state → ∀ uid_validity uid, state.uid_validity < uid_validity →
    world.stored.row uid_validity uid = none
  checkpoint : ∀ state, world.stored.state = some state → ∀ checkpoint, state.partial_initial_uid = some checkpoint →
    state.highest_modseq = none ∧ ∀ uid, checkpoint < uid → world.stored.row state.uid_validity uid = none
  highest_modseq : ∀ state modseq, world.stored.state = some state → state.uid_validity = world.server.uid_validity →
    state.highest_modseq = some modseq → modseq ≤ world.server.highest_modseq
  sound : world.Sound

section Server

variable {stored : LocalMailbox} {server after : ServerMailbox}

/-- Changes of the server leave a certified row certified. -/
theorem consistent_precedes (hconsistent : MailboxWorld.Consistent ⟨server, stored⟩) (hprecedes : Precedes server after) :
    MailboxWorld.Consistent ⟨after, stored⟩ where
  unlisted := hconsistent.unlisted
  validity state hstate := (hconsistent.validity state hstate).trans_eq hprecedes.uid_validity
  future := hconsistent.future
  checkpoint := hconsistent.checkpoint
  highest_modseq state modseq hstate hvalidity hmodseq :=
    (hconsistent.highest_modseq state modseq hstate (hvalidity.trans hprecedes.uid_validity.symm) hmodseq).trans
      hprecedes.highest_modseq
  sound state modseq hstate hvalidity hmodseq uid hle := by
    have hbefore := hvalidity.trans hprecedes.uid_validity.symm
    have hrecorded := hconsistent.highest_modseq state modseq hstate hbefore hmodseq
    have hsame := hprecedes.old uid (hle.trans hrecorded)
    rw [← hprecedes.shown hsame]
    exact hconsistent.sound state modseq hstate hbefore hmodseq uid (hsame.trans_le hle)

/-- A new incarnation leaves nothing certified. -/
theorem consistent_reset (hconsistent : MailboxWorld.Consistent ⟨server, stored⟩)
    (hreset : server.uid_validity < after.uid_validity) : MailboxWorld.Consistent ⟨after, stored⟩ where
  unlisted := hconsistent.unlisted
  validity state hstate := (hconsistent.validity state hstate).trans hreset.le
  future := hconsistent.future
  checkpoint := hconsistent.checkpoint
  highest_modseq state _ hstate hvalidity _ :=
    absurd (hvalidity.symm.trans_le (hconsistent.validity state hstate)) (not_le_of_gt hreset)
  sound state _ hstate hvalidity _ _ _ :=
    absurd (hvalidity.symm.trans_le (hconsistent.validity state hstate)) (not_le_of_gt hreset)

theorem consistent_later (hconsistent : MailboxWorld.Consistent ⟨server, stored⟩) (hlater : Later server after) :
    MailboxWorld.Consistent ⟨after, stored⟩ := by
  obtain hprecedes | hreset := hlater.precedes_or_reset
  · exact consistent_precedes hconsistent hprecedes
  · exact consistent_reset hconsistent hreset

theorem consistent_empty : MailboxWorld.Consistent ⟨server, LocalMailbox.empty⟩ where
  unlisted _ _ _ := rfl
  validity _ hstate := nomatch hstate
  future _ hstate := nomatch hstate
  checkpoint _ hstate := nomatch hstate
  highest_modseq _ _ hstate := nomatch hstate
  sound _ _ hstate := nomatch hstate

/-- No row has a UIDVALIDITY the server has not given yet. -/
theorem row_of_future (hconsistent : MailboxWorld.Consistent ⟨server, stored⟩) {uid_validity : ImapUidValidity}
    (hfuture : server.uid_validity < uid_validity) (uid : ImapUid) : stored.row uid_validity uid = none := by
  cases hstate : stored.state with
  | none => exact hconsistent.unlisted hstate uid_validity uid
  | some state =>
    exact hconsistent.future state hstate uid_validity uid ((hconsistent.validity state hstate).trans_lt hfuture)

/-- A cycle that completes records a state of the incarnation it examined. -/
theorem consistent_completed {examined closing : ServerMailbox} {state : ImapMailboxSyncState}
    (hclosing : Precedes examined closing) (hstate : stored.state = some state)
    (hvalidity : state.uid_validity = examined.uid_validity) (hwhole : state.partial_initial_uid = none)
    (hfuture : ∀ uid_validity uid, examined.uid_validity < uid_validity → stored.row uid_validity uid = none)
    (hmodseq : ∀ modseq, state.highest_modseq = some modseq → modseq ≤ closing.highest_modseq ∧
      ∀ uid, closing.modseq uid ≤ modseq → stored.row examined.uid_validity uid = closing.shown uid) :
    MailboxWorld.Consistent ⟨closing, stored⟩ where
  unlisted hnone := by
    rw [hstate] at hnone
    cases hnone
  validity other hother := by
    cases hstate.symm.trans hother
    exact (hvalidity.trans hclosing.uid_validity).le
  future other hother uid_validity uid hlt := by
    cases hstate.symm.trans hother
    exact hfuture uid_validity uid (hvalidity.symm.trans_lt hlt)
  checkpoint other hother checkpoint hsome := by
    cases hstate.symm.trans hother
    rw [hwhole] at hsome
    cases hsome
  highest_modseq other modseq hother _ hrecorded := by
    cases hstate.symm.trans hother
    exact (hmodseq modseq hrecorded).1
  sound other modseq hother _ hrecorded uid hle := by
    cases hstate.symm.trans hother
    rw [hvalidity]
    exact (hmodseq modseq hrecorded).2 uid hle

end Server

/-- A MODSEQ that the EXAMINE gave, or that a header brought while nothing was disturbed. -/
def Certified (examined closing : ServerMailbox) (headers : List ImapFetchedHeader) (answeredAt : ImapUid → ServerMailbox)
    (modseq : ImapModSeq) : Prop :=
  modseq ≤ examined.highest_modseq ∨
    (∃ header ∈ headers, header.modseq = some modseq) ∧ Undisturbed headers answeredAt closing

section Answers

variable {examined closing : ServerMailbox} {answeredAt : ImapUid → ServerMailbox} {headers : List ImapFetchedHeader}
  {modseq : ImapModSeq} {uid : ImapUid}

/-- A message that did not change after the recorded MODSEQ did not change after its answer. -/
theorem answered_current (hbefore : Precedes examined (answeredAt uid)) (hafter : Precedes (answeredAt uid) closing)
    (hmodseq : Certified examined closing headers answeredAt modseq) (hle : closing.modseq uid ≤ modseq) :
    (answeredAt uid).modseq uid = closing.modseq uid := by
  obtain hexamined | ⟨⟨header, hheader, hown⟩, hundisturbed⟩ := hmodseq
  · exact hbefore.between hafter ((hbefore.trans hafter).old uid (hle.trans hexamined))
  · exact hundisturbed header hheader modseq hown uid hle

section Found

variable {searched changed : ServerMailbox} {chunks : List (List ImapUid)} {reads : List ServerMailbox}

theorem listedAt_ordered (hsearched : Precedes examined searched ∧ Precedes searched closing)
    (hreads : ∀ server ∈ reads, Precedes searched server ∧ Precedes server closing) :
    Precedes examined (listedAt searched chunks reads uid) ∧ Precedes (listedAt searched chunks reads uid) closing := by
  unfold listedAt
  cases hread : readOf chunks reads uid with
  | none => exact hsearched
  | some server =>
    have hserver := hreads server (mem_of_readOf hread).2
    simp only
    split_ifs
    · exact hsearched
    · exact ⟨hsearched.1.trans hserver.1, hserver.2⟩

theorem resumedAt_ordered {checkpoint : ImapUid} (hsearched : Precedes examined searched ∧ Precedes searched closing)
    (hreads : ∀ server ∈ reads, Precedes searched server ∧ Precedes server closing) :
    Precedes examined (resumedAt examined searched checkpoint chunks reads uid) ∧
      Precedes (resumedAt examined searched checkpoint chunks reads uid) closing := by
  unfold resumedAt
  split_ifs
  · exact ⟨.refl examined, hsearched.1.trans hsearched.2⟩
  · exact listedAt_ordered hsearched hreads

/-- What a listing finds of a UID is current when its deciding mailbox is. -/
theorem listed_current (hsearched : Precedes searched closing)
    (hreads : ∀ server ∈ reads, Precedes searched server ∧ Precedes server closing)
    (hcomplete : chunks.length ≤ reads.length) (hlisted : uid ∈ chunks.flatten ↔ (searched.shown uid).isSome)
    (hsame : (listedAt searched chunks reads uid).modseq uid = closing.modseq uid) :
    ((readOf chunks reads uid).bind fun server => (server.message uid).map ServerMessage.keywords) =
      closing.shown uid := by
  unfold listedAt at hsame
  cases hread : readOf chunks reads uid with
  | none =>
    rw [hread] at hsame
    have hhidden : searched.shown uid = none := by
      rw [← Option.not_isSome_iff_eq_none, ← hlisted]
      intro hmem
      obtain ⟨server, hsome⟩ := exists_readOf hcomplete hmem
      rw [hread] at hsome
      cases hsome
    rw [Option.bind_none, ← hsearched.shown hsame, hhidden]
  | some server =>
    obtain ⟨hmem, hserver⟩ := mem_of_readOf hread
    obtain ⟨hbefore, hafter⟩ := hreads server hserver
    simp only [hread] at hsame
    rw [Option.bind_some]
    cases hdeleted : server.isDeleted uid with
    | true =>
      rw [if_pos hdeleted] at hsame
      have hshown := hlisted.mp hmem
      rw [hsearched.shown hsame, ← hafter.shown (hbefore.between hafter hsame), shown_of_isDeleted hdeleted] at hshown
      exact absurd hshown Bool.false_ne_true
    | false =>
      rw [if_neg (Bool.eq_false_iff.mp hdeleted)] at hsame
      rw [← hafter.shown hsame, shown_of_not_isDeleted hdeleted]

theorem deltaAt_ordered (hsearched : Precedes examined searched ∧ Precedes searched closing)
    (hchanged : Precedes searched changed ∧ Precedes changed closing)
    (hreads : ∀ server ∈ reads, Precedes changed server ∧ Precedes server closing) :
    Precedes examined (deltaAt searched changed chunks reads uid) ∧
      Precedes (deltaAt searched changed chunks reads uid) closing := by
  unfold deltaAt
  cases hread : readOf chunks reads uid with
  | none =>
    simp only
    split_ifs
    · exact ⟨hsearched.1.trans hchanged.1, hchanged.2⟩
    · exact hsearched
  | some server =>
    have hserver := hreads server (mem_of_readOf hread).2
    simp only
    split_ifs
    · exact ⟨(hsearched.1.trans hchanged.1).trans hserver.1, hserver.2⟩
    · exact hsearched

end Found

end Answers

section Plans

variable {sync : MailboxSync} {stored : LocalMailbox}

/-- What a plan says of the stored state. -/
theorem plan_cases (capabilities : ImapCapabilities) (stored : Option ImapMailboxSyncState)
    (selected : ImapSelectedMailbox) :
    (stored = none ∧ plan_imap_mailbox_sync capabilities stored selected = .FullSnapshot .InitialSync) ∨
      ∃ state, stored = some state ∧
        (plan_imap_mailbox_sync capabilities stored selected = .FullSnapshot .UidValidityChanged ∨
          (∃ checkpoint, state.partial_initial_uid = some checkpoint ∧
            plan_imap_mailbox_sync capabilities stored selected = .FullSnapshot .ResumeInitialSync) ∨
          state.partial_initial_uid = none ∧
            (plan_imap_mailbox_sync capabilities stored selected = .FullSnapshot .FlagDeltaUnavailable ∨
              plan_imap_mailbox_sync capabilities stored selected = .FullSnapshot .MissingUidWatermark ∨
              ∃ since_modseq, state.highest_modseq = some since_modseq ∧
                (plan_imap_mailbox_sync capabilities stored selected =
                    .QresyncDelta selected.uid_validity since_modseq state.highest_uid ∨
                  plan_imap_mailbox_sync capabilities stored selected =
                    .CondstoreDelta since_modseq state.highest_uid))) := by
  unfold plan_imap_mailbox_sync
  cases stored with
  | none => exact Or.inl ⟨rfl, rfl⟩
  | some state =>
    refine Or.inr ⟨state, rfl, ?_⟩
    simp only
    by_cases hvalid : state.is_valid_for selected.uid_validity = true
    · rw [if_neg (by rw [hvalid]; exact Bool.false_ne_true)]
      cases hwhole : state.partial_initial_uid with
      | some checkpoint => exact Or.inr (Or.inl ⟨checkpoint, rfl, rfl⟩)
      | none =>
        refine Or.inr (Or.inr ⟨rfl, ?_⟩)
        cases hmodseq : state.highest_modseq with
        | none => cases state.highest_uid <;> simp
        | some since_modseq =>
          cases selected.highest_modseq with
          | none => cases state.highest_uid <;> simp
          | some highest =>
            cases capabilities.supports_qresync && capabilities.supports_enable <;>
              cases capabilities.supports_condstore <;> cases state.highest_uid <;> simp
    · rw [if_pos (by simpa using hvalid)]
      exact Or.inl rfl

theorem initial_of_plan (hplan : sync.plan stored = .FullSnapshot .InitialSync) : stored.state = none := by
  unfold MailboxSync.plan at hplan
  obtain ⟨hnone, _⟩ | ⟨state, _, hcase⟩ := plan_cases sync.capabilities stored.state
    (selected_mailbox_from_examine_state sync.mailbox_id (sync.planned.examine sync.planned_modseq))
  · exact hnone
  · rw [hplan] at hcase
    simp at hcase

theorem resumed_of_plan (hplan : sync.plan stored = .FullSnapshot .ResumeInitialSync) :
    ∃ state checkpoint, stored.state = some state ∧ state.partial_initial_uid = some checkpoint := by
  unfold MailboxSync.plan at hplan
  obtain ⟨_, hinitial⟩ | ⟨state, hstate, hcase⟩ := plan_cases sync.capabilities stored.state
    (selected_mailbox_from_examine_state sync.mailbox_id (sync.planned.examine sync.planned_modseq))
  · rw [hplan] at hinitial
    cases hinitial
  · rw [hplan] at hcase
    simp only [reduceCtorEq, ImapMailboxSyncPlan.FullSnapshot.injEq, false_or, or_false, and_false, exists_false,
      and_true] at hcase
    obtain ⟨checkpoint, hcheckpoint⟩ := hcase
    exact ⟨state, checkpoint, hstate, hcheckpoint⟩

/-- A delta is planned on the MODSEQ of a completed snapshot. -/
theorem delta_of_plan {since_modseq : ImapModSeq} {after_uid : Option ImapUid} {uid_validity : ImapUidValidity}
    (hplan : sync.plan stored = .QresyncDelta uid_validity since_modseq after_uid ∨
      sync.plan stored = .CondstoreDelta since_modseq after_uid) :
    ∃ state, stored.state = some state ∧ state.highest_modseq = some since_modseq ∧ state.partial_initial_uid = none := by
  unfold MailboxSync.plan at hplan
  obtain ⟨_, hinitial⟩ | ⟨state, hstate, hcase⟩ := plan_cases sync.capabilities stored.state
    (selected_mailbox_from_examine_state sync.mailbox_id (sync.planned.examine sync.planned_modseq))
  · rw [hinitial] at hplan
    obtain hplan | hplan := hplan <;> cases hplan
  · refine ⟨state, hstate, ?_⟩
    obtain hplan | hplan := hplan
    · rw [hplan] at hcase
      simp only [reduceCtorEq, ImapMailboxSyncPlan.QresyncDelta.injEq, false_or, or_false, and_false, exists_false] at hcase
      obtain ⟨hwhole, since, hmodseq, _, rfl, _⟩ := hcase
      exact ⟨hmodseq, hwhole⟩
    · rw [hplan] at hcase
      simp only [reduceCtorEq, ImapMailboxSyncPlan.CondstoreDelta.injEq, false_or, and_false, exists_false] at hcase
      obtain ⟨hwhole, since, hmodseq, rfl, _⟩ := hcase
      exact ⟨hmodseq, hwhole⟩

end Plans

section Ordered

variable {sync : MailboxSync}

instance : Trans Precedes Precedes Precedes := ⟨Precedes.trans⟩

theorem ordered_of_found (hfound : (sync.examined :: sync.fetch.found).IsChain Changes) :
    (sync.examined :: sync.fetch.found).Pairwise Precedes :=
  (hfound.imp fun _ _ hchanges => hchanges.precedes).pairwise

theorem precedes_getLastD {first : ServerMailbox} {rest : List ServerMailbox} (hordered : (first :: rest).Pairwise Precedes) :
    ∀ server ∈ first :: rest, Precedes server (rest.getLastD first) := by
  induction rest generalizing first with
  | nil =>
    intro server hserver
    rw [List.mem_singleton.mp hserver]
    exact .refl first
  | cons next rest ih =>
    intro server hserver
    rw [List.pairwise_cons] at hordered
    rw [List.getLastD_cons]
    obtain rfl | hlater := List.mem_cons.mp hserver
    · exact (hordered.1 next List.mem_cons_self).trans (ih hordered.2 next List.mem_cons_self)
    · exact ih hordered.2 server hlater

theorem precedes_closing (hfound : (sync.examined :: sync.fetch.found).IsChain Changes) :
    ∀ server ∈ sync.examined :: sync.fetch.found, Precedes server sync.closing :=
  precedes_getLastD (ordered_of_found hfound)

end Ordered

section Listings

variable {sync : MailboxSync} {stored : LocalMailbox} {searched : ServerMailbox} {reads : List ServerMailbox}

theorem flatten_listed : (MailboxSync.listed searched).flatten = searched.undeleted :=
  List.flatten_toChunks UID_FETCH_CHUNK_SIZE _

theorem flatten_pending : (MailboxSync.pending stored searched).flatten =
    uids_above searched.undeleted (MailboxSync.checkpoint stored) := List.flatten_toChunks INITIAL_SNAPSHOT_CHUNK_SIZE _

theorem mem_uids_above {uids : List ImapUid} {after_uid uid : ImapUid} :
    uid ∈ uids_above uids after_uid ↔ uid ∈ uids ∧ after_uid < uid := by
  unfold uids_above
  rw [List.mem_filter, decide_eq_true_iff]

/-- A header's MODSEQ is not ahead of the mailbox it was read from. -/
theorem modseq_of_mem_readChunks {closing : ServerMailbox} {fetch_modseq : Bool} {chunks : List (List ImapUid)}
    (hreads : ∀ server ∈ reads, Precedes server closing) {header : ImapFetchedHeader}
    (hmem : header ∈ readChunks fetch_modseq chunks reads) {modseq : ImapModSeq} (hmodseq : header.modseq = some modseq) :
    modseq ≤ closing.highest_modseq := by
  obtain ⟨server, hserver, chunk, hfetched⟩ := mem_readChunks hmem
  exact (modseq_of_mem_fetch hfetched hmodseq).trans (hreads server hserver).highest_modseq

/-- A listing that is applied leaves current rows where its answers are current. -/
theorem consistent_listing {fetch_modseq allowed : Bool} {state : ImapMailboxSyncState}
    (hconsistent : MailboxWorld.Consistent ⟨sync.examined, stored⟩)
    (hordered : (sync.examined :: searched :: reads).Pairwise Precedes)
    (hclosing : ∀ server ∈ sync.examined :: searched :: reads, Precedes server sync.closing)
    (hcomplete : (MailboxSync.listed searched).length ≤ reads.length)
    (hvalidity : state.uid_validity = sync.examined.uid_validity) (hwhole : state.partial_initial_uid = none)
    (hmodseq : ∀ modseq, state.highest_modseq = some modseq →
      sync.ListingApplied stored
          ((readChunks fetch_modseq (MailboxSync.listed searched) reads).map ImapFetchedHeader.uid) allowed ∧
        Certified sync.examined sync.closing (readChunks fetch_modseq (MailboxSync.listed searched) reads)
          (listedAt searched (MailboxSync.listed searched) reads) modseq) :
    MailboxWorld.Consistent ⟨sync.closing, stored.apply
      (sync.listingCommit (readChunks fetch_modseq (MailboxSync.listed searched) reads) allowed state)⟩ := by
  obtain ⟨hexamined, hsearched⟩ := List.pairwise_cons.mp hordered
  have hsearchedFrom := hexamined searched List.mem_cons_self
  have hsearchedTo := hclosing searched (by simp)
  have hreads : ∀ server ∈ reads, Precedes searched server ∧ Precedes server sync.closing := fun server hserver =>
    ⟨(List.pairwise_cons.mp hsearched).1 server hserver, hclosing server (by simp [hserver])⟩
  have hnodup : (MailboxSync.listed searched).flatten.Nodup := by
    rw [flatten_listed]
    exact undeleted_nodup
  refine consistent_completed (hclosing _ List.mem_cons_self) rfl hvalidity hwhole ?_ ?_
  · intro uid_validity uid hfuture
    exact LocalMailbox.row_apply_of_none hfuture.ne' (row_of_future hconsistent hfuture uid)
  · intro modseq hrecorded
    obtain ⟨happlied, hcertified⟩ := hmodseq modseq hrecorded
    refine ⟨?_, ?_⟩
    · obtain hexamined | ⟨⟨header, hheader, hown⟩, _⟩ := hcertified
      · exact hexamined.trans (hclosing _ List.mem_cons_self).highest_modseq
      · exact modseq_of_mem_readChunks (fun server hserver => (hreads server hserver).2) hheader hown
    · intro uid hle
      obtain ⟨hbefore, hafter⟩ := @listedAt_ordered _ _ uid _ (MailboxSync.listed searched) _
        ⟨hsearchedFrom, hsearchedTo⟩ hreads
      have hsame := answered_current hbefore hafter hcertified hle
      have hlisted : uid ∈ (MailboxSync.listed searched).flatten ↔ (searched.shown uid).isSome := by
        rw [flatten_listed]
        exact mem_undeleted
      have hcurrent := listed_current hsearchedTo hreads hcomplete hlisted hsame
      rw [← @keywords_readChunks fetch_modseq _ _ _ hnodup] at hcurrent
      refine (LocalMailbox.row_apply_selected _ _ _).trans ?_
      show ((readChunks fetch_modseq (MailboxSync.listed searched) reads).find? _ |>.map _).or
        (if allowed then none else stored.row sync.examined.uid_validity uid) = _
      cases hfound : (readChunks fetch_modseq (MailboxSync.listed searched) reads).find? (·.uid = uid) with
      | some header =>
        rw [hfound] at hcurrent
        exact hcurrent
      | none =>
        rw [hfound] at hcurrent
        rw [← hcurrent, Option.map_none, Option.none_or]
        obtain hallowed | hheld := happlied
        · exact if_pos hallowed
        · split_ifs
          · rfl
          · by_contra hrow
            exact find_eq_none_iff.mp hfound (hheld uid hrow)

end Listings

section Streams

variable {sync : MailboxSync} {stored : LocalMailbox} {searched : ServerMailbox} {reads : List ServerMailbox}

theorem pending_sorted : (MailboxSync.pending stored searched).flatten.Pairwise (· < ·) := by
  rw [flatten_pending]
  exact (List.pairwise_lt_range.filter _).filter _

theorem mem_pending {uid : ImapUid} : uid ∈ (MailboxSync.pending stored searched).flatten ↔
    (searched.shown uid).isSome ∧ MailboxSync.checkpoint stored < uid := by
  rw [flatten_pending, mem_uids_above, mem_undeleted]

/-- An initial snapshot has no rows beyond its checkpoint. -/
theorem row_above_checkpoint (hconsistent : MailboxWorld.Consistent ⟨sync.examined, stored⟩)
    (hplan : sync.plan stored = .FullSnapshot .InitialSync ∨ sync.plan stored = .FullSnapshot .ResumeInitialSync)
    {uid : ImapUid} (habove : MailboxSync.checkpoint stored < uid) :
    stored.row sync.examined.uid_validity uid = none := by
  obtain hplan | hplan := hplan
  · exact hconsistent.unlisted (initial_of_plan hplan) _ uid
  · obtain ⟨state, checkpoint, hstate, hresumed⟩ := resumed_of_plan hplan
    have hcheckpoint : MailboxSync.checkpoint stored = checkpoint := by
      unfold MailboxSync.checkpoint
      rw [hstate, Option.bind_some, hresumed]
      rfl
    rw [hcheckpoint] at habove
    obtain hsame | hless := (hconsistent.validity state hstate).eq_or_lt
    · rw [← hsame]
      exact (hconsistent.checkpoint state hstate checkpoint hresumed).2 uid habove
    · exact hconsistent.future state hstate _ uid hless

variable (hconsistent : MailboxWorld.Consistent ⟨sync.examined, stored⟩)
  (hplan : sync.plan stored = .FullSnapshot .InitialSync ∨ sync.plan stored = .FullSnapshot .ResumeInitialSync)
  (hordered : (sync.examined :: searched :: reads).Pairwise Precedes)
  (hclosing : ∀ server ∈ sync.examined :: searched :: reads, Precedes server sync.closing)

include hconsistent hplan hordered hclosing

/-- An interrupted snapshot certifies nothing, and its rows stay below its checkpoint. -/
theorem consistent_interrupted (hshort : reads.length < (MailboxSync.pending stored searched).length) :
    MailboxWorld.Consistent ⟨sync.closing, (streamCommits sync.fetch_modseq sync.selected searched.undeleted.max? []
      (MailboxSync.pending stored searched) reads).foldl LocalMailbox.apply stored⟩ := by
  have hexamined := hclosing _ List.mem_cons_self
  obtain ⟨hnone, rfl⟩ | ⟨checkpoint, hmem, hstate, hbound⟩ :=
    @interrupted_streamCommits sync.fetch_modseq sync.selected searched.undeleted.max? []
      (MailboxSync.pending stored searched) reads stored hshort pending_sorted fun chunk => List.ne_nil_of_mem_toChunks
  · rw [hnone]
    exact consistent_precedes hconsistent hexamined
  · have hrow := @row_streamCommits sync.fetch_modseq sync.selected searched.undeleted.max? []
      (MailboxSync.pending stored searched) reads stored (pending_sorted.imp ne_of_lt)
    have hfinal := fun other (hother : _ = some other) => Option.some.inj (hstate.symm.trans hother)
    constructor
    · intro hnone
      rw [hstate] at hnone
      cases hnone
    · intro other hother
      rw [← hfinal other hother]
      exact hexamined.uid_validity.le
    · intro other hother uid_validity uid hfuture
      rw [← hfinal other hother] at hfuture
      have hne : uid_validity ≠ sync.selected.uid_validity := hfuture.ne'
      rw [hrow, if_neg hne]
      exact row_of_future hconsistent hfuture uid
    · intro other hother bound hresumed
      rw [← hfinal other hother] at hresumed ⊢
      cases hresumed
      refine ⟨rfl, fun uid habove => ?_⟩
      have hunread : readOf (MailboxSync.pending stored searched) reads uid = none := by
        refine Option.eq_none_iff_forall_ne_some.mpr fun server hread => ?_
        exact absurd (hbound uid server hread) (not_le_of_gt habove)
      rw [hrow, hunread, Option.bind_none, ite_self]
      exact row_above_checkpoint hconsistent hplan ((mem_pending.mp hmem).2.trans habove)
    · intro other modseq hother _ hmodseq
      rw [← hfinal other hother] at hmodseq
      cases hmodseq
    · intro other modseq hother _ hmodseq
      rw [← hfinal other hother] at hmodseq
      cases hmodseq

/-- A completed snapshot certifies its rows when those it did not fetch are current. -/
theorem consistent_streamed (hcomplete : (MailboxSync.pending stored searched).length ≤ reads.length)
    (hready : sync.Marked (readChunks sync.fetch_modseq (MailboxSync.pending stored searched) reads) →
      sync.PrefixCurrent stored)
    (hundisturbed : sync.examined_modseq = true ∨
      Undisturbed (readChunks sync.fetch_modseq (MailboxSync.pending stored searched) reads)
        (resumedAt sync.examined searched (MailboxSync.checkpoint stored) (MailboxSync.pending stored searched) reads)
        sync.closing) :
    MailboxWorld.Consistent ⟨sync.closing, (streamCommits sync.fetch_modseq sync.selected searched.undeleted.max? []
      (MailboxSync.pending stored searched) reads).foldl LocalMailbox.apply stored⟩ := by
  obtain ⟨hexamined, hsearched⟩ := List.pairwise_cons.mp hordered
  have hsearchedFrom := hexamined searched List.mem_cons_self
  have hsearchedTo := hclosing searched (by simp)
  have hreads : ∀ server ∈ reads, Precedes searched server ∧ Precedes server sync.closing := fun server hserver =>
    ⟨(List.pairwise_cons.mp hsearched).1 server hserver, hclosing server (by simp [hserver])⟩
  have hrow := @row_streamCommits sync.fetch_modseq sync.selected searched.undeleted.max? []
    (MailboxSync.pending stored searched) reads stored (pending_sorted.imp ne_of_lt)
  refine consistent_completed (hclosing _ List.mem_cons_self) (state_streamCommits hcomplete) rfl rfl ?_ ?_
  · intro uid_validity uid hfuture
    have hne : uid_validity ≠ sync.selected.uid_validity := hfuture.ne'
    rw [hrow, if_neg hne]
    exact row_of_future hconsistent hfuture uid
  · intro modseq hmodseq
    have hcertified : sync.Marked (readChunks sync.fetch_modseq (MailboxSync.pending stored searched) reads) ∧
        Certified sync.examined sync.closing
          (readChunks sync.fetch_modseq (MailboxSync.pending stored searched) reads)
          (resumedAt sync.examined searched (MailboxSync.checkpoint stored) (MailboxSync.pending stored searched) reads)
          modseq := by
      obtain ⟨hreported, rfl⟩ | ⟨hunreported, hmem⟩ := highest_modseq_or hmodseq
      · exact ⟨Or.inl hreported, Or.inl (le_refl _)⟩
      · rw [List.nil_append, List.mem_filterMap] at hmem
        obtain ⟨header, hheader, hown⟩ := hmem
        refine ⟨Or.inr ⟨header, hheader, hown ▸ Option.some_ne_none modseq⟩, Or.inr ⟨⟨header, hheader, hown⟩, ?_⟩⟩
        exact hundisturbed.resolve_left (Bool.eq_false_iff.mp hunreported)
    obtain ⟨hmarked, hcertified⟩ := hcertified
    refine ⟨?_, ?_⟩
    · obtain hbefore | ⟨⟨header, hheader, hown⟩, _⟩ := hcertified
      · exact hbefore.trans (hclosing _ List.mem_cons_self).highest_modseq
      · exact modseq_of_mem_readChunks (fun server hserver => (hreads server hserver).2) hheader hown
    · intro uid hle
      have hselected : sync.examined.uid_validity = sync.selected.uid_validity := rfl
      rw [hrow, if_pos hselected]
      obtain ⟨hbefore, hafter⟩ := @resumedAt_ordered _ _ uid _ (MailboxSync.pending stored searched) _
        (MailboxSync.checkpoint stored) ⟨hsearchedFrom, hsearchedTo⟩ hreads
      have hsame := answered_current hbefore hafter hcertified hle
      by_cases hcommitted : uid ≤ MailboxSync.checkpoint stored
      · rw [resumedAt, if_pos hcommitted] at hsame
        have hunread : readOf (MailboxSync.pending stored searched) reads uid = none :=
          readOf_eq_none fun hmem => absurd hcommitted (not_le_of_gt (mem_pending.mp hmem).2)
        rw [hunread, Option.bind_none, Option.none_or, hready hmarked uid hcommitted]
        exact (hclosing _ List.mem_cons_self).shown hsame
      · rw [resumedAt, if_neg hcommitted] at hsame
        have hlisted : uid ∈ (MailboxSync.pending stored searched).flatten ↔ (searched.shown uid).isSome := by
          rw [mem_pending, and_iff_left (not_le.mp hcommitted)]
        rw [listed_current hsearchedTo hreads hcomplete hlisted hsame,
          row_above_checkpoint hconsistent hplan (not_le.mp hcommitted), Option.or_none]

/-- A streamed snapshot keeps the invariant, whether it completes or not. -/
theorem consistent_stream
    (hmeets : (MailboxSync.pending stored searched).length ≤ reads.length →
      (sync.Marked (readChunks sync.fetch_modseq (MailboxSync.pending stored searched) reads) →
        sync.PrefixCurrent stored) ∧
      (sync.examined_modseq = true ∨ Undisturbed (readChunks sync.fetch_modseq (MailboxSync.pending stored searched) reads)
        (resumedAt sync.examined searched (MailboxSync.checkpoint stored) (MailboxSync.pending stored searched) reads)
        sync.closing)) :
    MailboxWorld.Consistent ⟨sync.closing, (streamCommits sync.fetch_modseq sync.selected searched.undeleted.max? []
      (MailboxSync.pending stored searched) reads).foldl LocalMailbox.apply stored⟩ := by
  obtain hcomplete | hshort := le_or_gt (MailboxSync.pending stored searched).length reads.length
  · obtain ⟨hready, hundisturbed⟩ := hmeets hcomplete
    exact consistent_streamed hconsistent hplan hordered hclosing hcomplete hready hundisturbed
  · exact consistent_interrupted hconsistent hplan hordered hclosing hshort

end Streams

section Deltas

variable {sync : MailboxSync} {stored : LocalMailbox} {state : ImapMailboxSyncState} {since_modseq : ImapModSeq}

/-- Where a later state has no change past the recorded MODSEQ, the row is what that state shows. -/
theorem row_unchanged {later : ServerMailbox} {uid : ImapUid}
    (hconsistent : MailboxWorld.Consistent ⟨sync.examined, stored⟩) (hlater : Precedes sync.examined later)
    (hstate : stored.state = some state) (hvalidity : state.uid_validity = sync.examined.uid_validity)
    (hsince : state.highest_modseq = some since_modseq) (hle : later.modseq uid ≤ since_modseq) :
    stored.row sync.examined.uid_validity uid = later.shown uid := by
  have hrecorded := hconsistent.highest_modseq state since_modseq hstate hvalidity hsince
  have hsame := hlater.old uid (hle.trans hrecorded)
  rw [← hlater.shown hsame, ← hvalidity]
  exact hconsistent.sound state since_modseq hstate hvalidity hsince uid (hsame.trans_le hle)

variable (hconsistent : MailboxWorld.Consistent ⟨sync.examined, stored⟩) (hstate : stored.state = some state)
  (hvalidity : state.uid_validity = sync.examined.uid_validity) (hsince : state.highest_modseq = some since_modseq)
  (hwhole : state.partial_initial_uid = none)

include hconsistent hstate hvalidity hsince hwhole

/-- One answer with the changes and the removals leaves every row current. -/
theorem consistent_qresync {fetched : ServerMailbox} (hfetched : Precedes sync.examined fetched) :
    MailboxWorld.Consistent ⟨fetched, stored.apply
      { uid_validity := sync.selected.uid_validity
        headers := fetched.changedSince since_modseq
        dropped := fun uid_validity uid =>
          uid_validity = sync.selected.uid_validity && uid ∈ fetched.vanishedSince since_modseq
        state := sync.deltaState state (fetched.changedSince since_modseq) (fetched.vanishedSince since_modseq) false }⟩ := by
  refine consistent_completed hfetched rfl (deltaState_keeps _ _).1 ((deltaState_keeps _ _).2.trans hwhole) ?_ ?_
  · intro uid_validity uid hfuture
    exact LocalMailbox.row_apply_of_none hfuture.ne' (row_of_future hconsistent hfuture uid)
  · intro modseq hmodseq
    refine ⟨?_, fun uid _ => ?_⟩
    · obtain (hstored | ⟨header, hheader, hown⟩) | rfl := highest_modseq_deltaState hmodseq
      · exact (hconsistent.highest_modseq state modseq hstate hvalidity hstored).trans hfetched.highest_modseq
      · exact modseq_of_mem_fetch hheader hown
      · exact hfetched.highest_modseq
    · refine (LocalMailbox.row_apply_selected _ _ uid).trans ?_
      simp only [find_changedSince, decide_true, Bool.true_and, decide_eq_true_eq]
      by_cases hchanged : since_modseq < fetched.modseq uid
      · rw [if_pos hchanged]
        cases hshown : fetched.shown uid with
        | none => rw [if_pos (mem_vanishedSince.mpr ⟨hchanged, hshown⟩), Option.none_or]
        | some keywords => rfl
      · have hkept : uid ∉ fetched.vanishedSince since_modseq := fun hmem => hchanged (mem_vanishedSince.mp hmem).1
        rw [if_neg hchanged, if_neg hkept, Option.none_or]
        exact row_unchanged hconsistent hfetched hstate hvalidity hsince (not_lt.mp hchanged)

variable {searched changed : ServerMailbox} {reads : List ServerMailbox} {after_uid : Option ImapUid} {allowed : Bool}

omit hwhole in
/-- What a CONDSTORE delta leaves of a row is current when its deciding mailbox is. -/
theorem delta_current {closing : ServerMailbox} {uid : ImapUid} (hsearched : Precedes sync.examined searched)
    (hchanged : Precedes searched changed) (hclosing : Precedes changed closing)
    (hreads : ∀ server ∈ reads, Precedes changed server ∧ Precedes server closing)
    (happlied : sync.ListingApplied stored (searched.undeleted ++ (changed.changedSince since_modseq ++
      readChunks true (MailboxSync.missed searched changed since_modseq after_uid) reads).map ImapFetchedHeader.uid) allowed)
    (hsame : (deltaAt searched changed (MailboxSync.missed searched changed since_modseq after_uid) reads uid).modseq uid =
      closing.modseq uid) :
    (((changed.changedSince since_modseq ++
        readChunks true (MailboxSync.missed searched changed since_modseq after_uid) reads).find?
          (·.uid = uid)).map ImapFetchedHeader.keywords).or
      (if (allowed && decide (uid ∉ searched.undeleted)) = true then none
        else stored.row sync.examined.uid_validity uid) = closing.shown uid := by
  have hflatten : (MailboxSync.missed searched changed since_modseq after_uid).flatten =
      MailboxSync.missed_new_uids searched changed since_modseq after_uid := List.flatten_toChunks UID_FETCH_CHUNK_SIZE _
  generalize MailboxSync.missed searched changed since_modseq after_uid = chunks at hflatten hsame happlied ⊢
  have hnodup : chunks.flatten.Nodup := by
    rw [hflatten]
    exact (undeleted_nodup.filter _).filter _
  have hkeywords := @keywords_readChunks true _ reads uid hnodup
  have hchangedKeywords := @find_changedSince changed uid since_modseq
  rw [List.find?_append, Option.map_or, hkeywords]
  unfold deltaAt at hsame
  cases hread : readOf chunks reads uid with
  | some server =>
    simp only [hread] at hsame
    obtain ⟨hbefore, hafter⟩ := hreads server (mem_of_readOf hread).2
    have hmissed := (mem_of_readOf hread).1
    rw [hflatten] at hmissed
    obtain ⟨hlisted, hunchanged⟩ := List.mem_filter.mp hmissed
    rw [find_eq_none_iff.mpr (of_decide_eq_true hunchanged), Option.map_none, Option.none_or, Option.bind_some]
    by_cases hshown : (server.shown uid).isSome
    · rw [if_pos hshown] at hsame
      rw [keywords_of_shown hshown, hafter.shown hsame]
      obtain ⟨keywords, hcurrent⟩ := Option.isSome_iff_exists.mp (hafter.shown hsame ▸ hshown)
      rw [hcurrent, Option.some_or]
    · rw [if_neg hshown] at hsame
      have hsearchedServer := hchanged.trans hbefore
      have hlistedShown := mem_undeleted.mp (mem_uids_above.mp hlisted).1
      rw [hsearchedServer.shown (hsame.trans (hsearchedServer.between hafter hsame).symm)] at hlistedShown
      exact absurd hlistedShown hshown
  | none =>
    rw [hread] at hsame
    rw [Option.bind_none, Option.or_none, hchangedKeywords]
    cases hshown : changed.shown uid with
    | some keywords =>
      simp only [hshown, Option.isSome_some, if_true] at hsame
      rw [← hclosing.shown hsame, hshown]
      by_cases hnewer : since_modseq < changed.modseq uid
      · rw [if_pos hnewer, Option.some_or]
      · have hrecorded := hconsistent.highest_modseq state since_modseq hstate hvalidity hsince
        have hlater := hsearched.trans hchanged
        have hold := hlater.old uid ((not_lt.mp hnewer).trans hrecorded)
        have hlisted : uid ∈ searched.undeleted := by
          rw [mem_undeleted, hchanged.shown (hsearched.between hchanged hold), hshown]
          rfl
        rw [if_neg hnewer, Option.none_or, if_neg (by simp [hlisted]), ← hshown]
        exact row_unchanged hconsistent hlater hstate hvalidity hsince (not_lt.mp hnewer)
    | none =>
      simp only [hshown, Option.isSome_none, Bool.false_eq_true, if_false] at hsame
      have hchangedSame := hchanged.between hclosing hsame
      have hunlisted : uid ∉ searched.undeleted := by
        rw [mem_undeleted, hchanged.shown (hsame.trans hchangedSame.symm), hshown]
        exact Bool.false_ne_true
      rw [ite_self, Option.none_or, ← hclosing.shown hchangedSame, hshown]
      obtain hallowed | hheld := happlied
      · rw [if_pos (by simp [hallowed, hunlisted])]
      · split_ifs
        · rfl
        · by_contra hrow
          rw [hshown, ite_self, Option.map_eq_none_iff] at hchangedKeywords
          rw [hread, Option.bind_none, Option.map_eq_none_iff] at hkeywords
          obtain hmem | hmem := List.mem_append.mp (hheld uid hrow)
          · exact hunlisted hmem
          · rw [List.map_append, List.mem_append] at hmem
            obtain hmem | hmem := hmem
            · exact find_eq_none_iff.mp hchangedKeywords hmem
            · exact find_eq_none_iff.mp hkeywords hmem

/-- A CONDSTORE delta leaves current rows where its answers are current. -/
theorem consistent_condstore
    (hordered : (sync.examined :: searched :: changed :: reads).Pairwise Precedes)
    (hclosing : ∀ server ∈ sync.examined :: searched :: changed :: reads, Precedes server sync.closing)
    (happlied : sync.ListingApplied stored (searched.undeleted ++ (changed.changedSince since_modseq ++
      readChunks true (MailboxSync.missed searched changed since_modseq after_uid) reads).map ImapFetchedHeader.uid) allowed)
    (hundisturbed : Undisturbed (changed.changedSince since_modseq ++
        readChunks true (MailboxSync.missed searched changed since_modseq after_uid) reads)
      (deltaAt searched changed (MailboxSync.missed searched changed since_modseq after_uid) reads) sync.closing) :
    MailboxWorld.Consistent ⟨sync.closing, stored.apply
      { uid_validity := sync.selected.uid_validity
        headers := changed.changedSince since_modseq ++
          readChunks true (MailboxSync.missed searched changed since_modseq after_uid) reads
        dropped := fun _ uid => allowed && uid ∉ searched.undeleted
        state := sync.deltaState state (changed.changedSince since_modseq ++
          readChunks true (MailboxSync.missed searched changed since_modseq after_uid) reads) [] false }⟩ := by
  obtain ⟨hexamined, hrest⟩ := List.pairwise_cons.mp hordered
  obtain ⟨hsearched, hlast⟩ := List.pairwise_cons.mp hrest
  have hsearchedTo := hclosing searched (by simp)
  have hchanged := hsearched changed List.mem_cons_self
  have hchangedTo := hclosing changed (by simp)
  have hreads : ∀ server ∈ reads, Precedes changed server ∧ Precedes server sync.closing := fun server hserver =>
    ⟨(List.pairwise_cons.mp hlast).1 server hserver, hclosing server (by simp [hserver])⟩
  refine consistent_completed (hclosing _ List.mem_cons_self) rfl (deltaState_keeps _ _).1
    ((deltaState_keeps _ _).2.trans hwhole) ?_ ?_
  · intro uid_validity uid hfuture
    exact LocalMailbox.row_apply_of_none hfuture.ne' (row_of_future hconsistent hfuture uid)
  · intro modseq hmodseq
    have hcertified : Certified sync.examined sync.closing (changed.changedSince since_modseq ++
        readChunks true (MailboxSync.missed searched changed since_modseq after_uid) reads)
        (deltaAt searched changed (MailboxSync.missed searched changed since_modseq after_uid) reads) modseq := by
      obtain (hstored | hheader) | rfl := highest_modseq_deltaState hmodseq
      · exact Or.inl (hconsistent.highest_modseq state modseq hstate hvalidity hstored)
      · exact Or.inr ⟨hheader, hundisturbed⟩
      · exact Or.inl (le_refl _)
    refine ⟨?_, fun uid hle => ?_⟩
    · obtain hbefore | ⟨⟨header, hheader, hown⟩, _⟩ := hcertified
      · exact hbefore.trans (hclosing _ List.mem_cons_self).highest_modseq
      · obtain hheader | hheader := List.mem_append.mp hheader
        · exact (modseq_of_mem_fetch hheader hown).trans hchangedTo.highest_modseq
        · exact modseq_of_mem_readChunks (fun server hserver => (hreads server hserver).2) hheader hown
    · obtain ⟨hbefore, hafter⟩ := @deltaAt_ordered _ _ uid _ _
        (MailboxSync.missed searched changed since_modseq after_uid) _
        ⟨hexamined searched List.mem_cons_self, hsearchedTo⟩ ⟨hchanged, hchangedTo⟩ hreads
      have hsame := answered_current hbefore hafter hcertified hle
      refine (LocalMailbox.row_apply_selected _ _ uid).trans ?_
      exact delta_current hconsistent hstate hvalidity hsince (hexamined searched List.mem_cons_self) hchanged hchangedTo
        hreads happlied hsame

end Deltas

section Cycle

variable {sync : MailboxSync} {stored : LocalMailbox}

/-- A cycle that meets its condition keeps the invariant. -/
theorem consistent_run (hconsistent : MailboxWorld.Consistent ⟨sync.examined, stored⟩)
    (hfound : (sync.examined :: sync.fetch.found).IsChain Changes) (hmeets : sync.Meets stored) :
    MailboxWorld.Consistent ⟨sync.closing, sync.run stored⟩ := by
  have hordered := ordered_of_found hfound
  have hclosing := precedes_closing hfound
  unfold MailboxSync.run MailboxSync.commits
  unfold MailboxSync.Meets at hmeets
  split
  case h_1 searched reads hplan hfetch =>
    rw [hfetch] at hmeets hordered hclosing
    exact consistent_stream hconsistent (Or.inl hplan) hordered hclosing hmeets
  case h_2 searched reads hplan hfetch =>
    rw [hfetch] at hmeets hordered hclosing
    exact consistent_stream hconsistent (Or.inr hplan) hordered hclosing hmeets
  case h_3 reason searched reads allowed hplan hfetch =>
    rw [hfetch] at hmeets hordered hclosing
    simp only at hmeets ⊢
    split_ifs with hcomplete
    · obtain ⟨happlied, hundisturbed⟩ := hmeets hcomplete
      refine consistent_listing hconsistent hordered hclosing hcomplete rfl rfl fun modseq hmodseq => ?_
      obtain ⟨hreported, rfl⟩ | ⟨hunreported, hmem⟩ := highest_modseq_or hmodseq
      · exact ⟨happlied (Or.inl hreported), Or.inl (le_refl _)⟩
      · obtain ⟨mapped, hmapped, hown⟩ := List.mem_filterMap.mp hmem
        obtain ⟨header, hheader, rfl⟩ := List.mem_map.mp hmapped
        have hown : header.modseq = some modseq := hown
        refine ⟨happlied (Or.inr ⟨header, hheader, ?_⟩), Or.inr ⟨⟨header, hheader, hown⟩, ?_⟩⟩
        · exact hown ▸ Option.some_ne_none modseq
        · exact hundisturbed.resolve_left (Bool.eq_false_iff.mp hunreported)
    · exact consistent_precedes hconsistent (hclosing _ List.mem_cons_self)
  case h_4 uid_validity since_modseq after_uid fetched hplan hfetch =>
    obtain ⟨state, hstate, hsince, hwhole⟩ := delta_of_plan (Or.inl hplan)
    rw [hfetch] at hmeets hordered hclosing
    simp only [hstate, Option.toList_some, List.map_cons, List.map_nil, List.foldl_cons, List.foldl_nil]
    have hlast : sync.closing = fetched := by
      unfold MailboxSync.closing
      rw [hfetch]
      rfl
    rw [hlast]
    exact consistent_qresync hconsistent hstate (hmeets state hstate) hsince hwhole
      ((List.pairwise_cons.mp hordered).1 fetched List.mem_cons_self)
  case h_5 uid_validity since_modseq after_uid searched reads allowed hplan hfetch =>
    obtain ⟨state, hstate, hsince, hwhole⟩ := delta_of_plan (Or.inl hplan)
    rw [hfetch] at hmeets hordered hclosing
    simp only at hmeets ⊢
    split_ifs with hcomplete
    · obtain ⟨hsame, happlied, hundisturbed⟩ := hmeets hcomplete
      simp only [hstate, Option.toList_some, List.map_cons, List.map_nil, List.foldl_cons, List.foldl_nil]
      refine consistent_listing hconsistent hordered hclosing hcomplete (deltaState_keeps _ _).1
        ((deltaState_keeps _ _).2.trans hwhole) fun modseq hmodseq => ⟨happlied, ?_⟩
      obtain (hstored | hheader) | rfl := highest_modseq_deltaState hmodseq
      · exact Or.inl (hconsistent.highest_modseq state modseq hstate (hsame state hstate) hstored)
      · exact Or.inr ⟨hheader, hundisturbed⟩
      · exact Or.inl (le_refl _)
    · exact consistent_precedes hconsistent (hclosing _ List.mem_cons_self)
  case h_6 since_modseq after_uid searched changed reads allowed hplan hfetch =>
    obtain ⟨state, hstate, hsince, hwhole⟩ := @delta_of_plan _ _ _ _ 0 (Or.inr hplan)
    rw [hfetch] at hmeets hordered hclosing
    simp only at hmeets ⊢
    split_ifs with hcomplete
    · obtain ⟨hsame, happlied, hundisturbed⟩ := hmeets since_modseq after_uid hplan hcomplete
      simp only [hstate, Option.toList_some, List.map_cons, List.map_nil, List.foldl_cons, List.foldl_nil]
      exact consistent_condstore hconsistent hstate (hsame state hstate) hsince hwhole hordered hclosing happlied
        hundisturbed
    · exact consistent_precedes hconsistent (hclosing _ List.mem_cons_self)
  case h_7 => exact consistent_precedes hconsistent (hclosing _ List.mem_cons_self)

/-- The guard of a run: every cycle meets its condition. -/
def MeetsCondition (world : MailboxWorld) : MailboxEvent → Prop
  | .cycle sync _ => sync.Meets world.stored
  | _ => True

theorem consistent_reachable {world : MailboxWorld} (hreach : mailboxSystem.Reachable MeetsCondition world) :
    world.Consistent := by
  refine hreach.invariant ?_ ?_
  · intro state hstart
    obtain ⟨server, stored⟩ := state
    cases hstart
    exact consistent_empty
  · intro state event next hconsistent hguard hstep
    cases event with
    | change after =>
      obtain ⟨hlater, rfl⟩ := hstep
      exact consistent_later hconsistent hlater
    | delete_mailbox =>
      obtain rfl := hstep
      exact consistent_empty
    | cycle sync after =>
      obtain ⟨hpossible, rfl⟩ := hstep
      have hexamined := consistent_later (consistent_later hconsistent hpossible.planned) hpossible.examined
      exact consistent_later (consistent_run hexamined hpossible.found hguard) hpossible.closing

end Cycle

section Resumed

def unseen : ServerMessage where
  keywords := BTreeSet.empty
  deleted := false
  parsed := default

/-- A mailbox with this many unseen messages. -/
def filled (count : Nat) : ServerMailbox where
  uid_validity := 1
  uid_next := count + 1
  highest_modseq := 5
  message uid := if 0 < uid ∧ uid ≤ count then some unseen else none
  modseq uid := if 0 < uid ∧ uid ≤ count then 5 else 0
  message_zero := rfl
  message_lt := by
    intro uid hsome
    split_ifs at hsome with hlisted
    · exact Nat.lt_succ_of_le hlisted.2
    · cases hsome
  modseq_le := by
    intro uid
    split_ifs <;> decide
  modseq_unused := by
    intro uid hunused
    exact if_neg fun hlisted => absurd hunused (not_le_of_gt (Nat.lt_succ_of_le hlisted.2))

/-- Its first message is read elsewhere. -/
def firstSeen (count : Nat) : ServerMailbox :=
  (filled count).change 1 (some { unseen with keywords := BTreeSet.from_iter ["$seen"] }) 6 Nat.one_pos (Nat.lt_succ_self 5)

theorem firstSeen_later {count : Nat} (hcount : 0 < count) : Later (filled count) (firstSeen count) := by
  refine .changes (.change (.refl (filled count)) 1 _ 6 Nat.one_pos (Nat.lt_succ_self 5) (Or.inl ?_))
  show (if 0 < 1 ∧ 1 ≤ count then some unseen else none).isSome
  rw [if_pos ⟨Nat.one_pos, hcount⟩]
  rfl

/-- A cycle during which the server does nothing. -/
def steadySync (server : ServerMailbox) (fetch : MailboxFetch) : MailboxSync where
  mailbox_id := "inbox"
  capabilities := {
    supports_enable := true, supports_condstore := true, supports_qresync := true, supports_gmail_extensions := false }
  fetch_modseq := true
  planned := server
  planned_modseq := true
  examined := server
  examined_modseq := true
  fetch := fetch

theorem steadySync_possible (server : ServerMailbox) (fetch : MailboxFetch) (hfound : ∀ found ∈ fetch.found, found = server) :
    (steadySync server fetch).Possible server server := by
  have hchain : ∀ {rest : List ServerMailbox}, (∀ found ∈ rest, found = server) →
      (server :: rest).IsChain Changes ∧ rest.getLastD server = server := by
    intro rest hrest
    induction rest with
    | nil => exact ⟨.singleton server, rfl⟩
    | cons first others ih =>
      obtain rfl := hrest first List.mem_cons_self
      obtain ⟨hchanges, hlast⟩ := ih fun found hmem => hrest found (List.mem_cons_of_mem _ hmem)
      exact ⟨.cons_cons (.refl _) hchanges, by rw [List.getLastD_cons, hlast]⟩
  obtain ⟨hchanges, hlast⟩ := hchain hfound
  refine ⟨.changes (.refl _), .changes (.refl _), hchanges, ?_⟩
  rw [show (steadySync server fetch).closing = server from hlast]
  exact .changes (.refl _)

def onceStreamed : LocalMailbox := (steadySync (filled 1) (.stream (filled 1) [filled 1])).run LocalMailbox.empty

def onceUpdated : LocalMailbox := (steadySync (firstSeen 1) (.qresync (firstSeen 1))).run onceStreamed

theorem reachable_cycle {guard : MailboxWorld → MailboxEvent → Prop} {server after : ServerMailbox} {stored : LocalMailbox}
    {sync : MailboxSync} (hreach : mailboxSystem.Reachable guard ⟨server, stored⟩)
    (hguard : guard ⟨server, stored⟩ (.cycle sync after)) (hpossible : sync.Possible server after) :
    mailboxSystem.Reachable guard ⟨after, sync.run stored⟩ :=
  @TransitionSystem.Reachable.next _ _ _ _ ⟨server, stored⟩ _ (.cycle sync after) hreach hguard ⟨hpossible, rfl⟩

theorem reachable_change {guard : MailboxWorld → MailboxEvent → Prop} {server after : ServerMailbox}
    {stored : LocalMailbox} (hreach : mailboxSystem.Reachable guard ⟨server, stored⟩)
    (hguard : guard ⟨server, stored⟩ (.change after)) (hlater : Later server after) :
    mailboxSystem.Reachable guard ⟨after, stored⟩ :=
  @TransitionSystem.Reachable.next _ _ _ _ ⟨server, stored⟩ _ (.change after) hreach hguard ⟨hlater, rfl⟩

/-- The snapshot of a larger mailbox is interrupted after its first chunk. -/
def interrupted : LocalMailbox := (steadySync (filled 129) (.stream (filled 129) [filled 129])).run LocalMailbox.empty

/-- It resumes after the first message was read elsewhere. -/
def resumed : LocalMailbox := (steadySync (firstSeen 129) (.stream (firstSeen 129) [firstSeen 129])).run interrupted

end Resumed

end posthaste.imap
