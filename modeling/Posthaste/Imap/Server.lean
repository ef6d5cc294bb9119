import Posthaste.Imap.Gateway

open posthaste.model

namespace posthaste.imap

/-- A message as the server holds it. Only its flags change. -/
structure ServerMessage where
  keywords : BTreeSet String
  deleted : Bool
  parsed : MessageRecord

/-- A mailbox on the server. `modseq` is that of the last change of a message, its expunge included. -/
structure ServerMailbox where
  uid_validity : ImapUidValidity
  uid_next : ImapUid
  highest_modseq : ImapModSeq
  message : ImapUid → Option ServerMessage
  modseq : ImapUid → ImapModSeq
  message_zero : message 0 = none
  message_lt : ∀ uid, (message uid).isSome → uid < uid_next
  modseq_le : ∀ uid, modseq uid ≤ highest_modseq
  modseq_unused : ∀ uid, uid_next ≤ uid → modseq uid = 0

namespace ServerMailbox

variable (server : ServerMailbox)

/-- The flags of a message that is there and not marked deleted. -/
def shown (uid : ImapUid) : Option (BTreeSet String) :=
  (server.message uid).bind fun message => if message.deleted then none else some message.keywords

def isDeleted (uid : ImapUid) : Bool := (server.message uid).any ServerMessage.deleted

/-- The answer to an EXAMINE. A server may leave HIGHESTMODSEQ out. -/
def examine (reports_modseq : Bool) : ExamineState where
  uid_validity := server.uid_validity
  uid_next := some server.uid_next
  highest_modseq := if reports_modseq then some server.highest_modseq else none

/-- The answer to UID SEARCH UNDELETED. -/
def undeleted : List ImapUid := (List.range server.uid_next).filter fun uid => (server.shown uid).isSome

def header (fetch_modseq : Bool) (uid : ImapUid) (message : ServerMessage) : ImapFetchedHeader where
  uid := uid
  modseq := if fetch_modseq then some (server.modseq uid) else none
  keywords := message.keywords
  gmail_message_id := none
  gmail_labels := none
  parsed := message.parsed

/-- The answer to a UID FETCH, which leaves out what is not there. -/
def fetch (fetch_modseq : Bool) (uids : List ImapUid) : List ImapFetchedHeader :=
  uids.filterMap fun uid => (server.message uid).map (server.header fetch_modseq uid)

/-- The messages a UID FETCH with CHANGEDSINCE answers for. -/
def changedUids (since_modseq : ImapModSeq) : List ImapUid :=
  (List.range server.uid_next).filter (since_modseq < server.modseq ·)

/-- The headers of the changed messages that are not marked deleted. -/
def changedSince (since_modseq : ImapModSeq) : List ImapFetchedHeader :=
  server.fetch true ((server.changedUids since_modseq).filter fun uid => (server.shown uid).isSome)

/-- The changed messages that are expunged or marked deleted. -/
def vanishedSince (since_modseq : ImapModSeq) : List ImapUid :=
  (server.changedUids since_modseq).filter fun uid => (server.shown uid).isNone

/-- One change: flags are set, a message is expunged, or one is appended. It gets a new MODSEQ. -/
def change (uid : ImapUid) (message : Option ServerMessage) (modseq : ImapModSeq) (huid : 0 < uid)
    (hnew : server.highest_modseq < modseq) : ServerMailbox where
  uid_validity := server.uid_validity
  uid_next := max server.uid_next (uid + 1)
  highest_modseq := modseq
  message other := if other = uid then message else server.message other
  modseq other := if other = uid then modseq else server.modseq other
  message_zero := by
    rw [if_neg huid.ne]
    exact server.message_zero
  message_lt := by
    intro other hsome
    by_cases hother : other = uid
    · rw [hother]
      exact lt_max_of_lt_right (Nat.lt_succ_self uid)
    · rw [if_neg hother] at hsome
      exact lt_max_of_lt_left (server.message_lt other hsome)
  modseq_le := by
    intro other
    split_ifs
    · exact le_refl modseq
    · exact (server.modseq_le other).trans hnew.le
  modseq_unused := by
    intro other hunused
    have hother : other ≠ uid := by
      rintro rfl
      exact absurd ((le_max_right _ _).trans hunused) (Nat.not_succ_le_self other)
    rw [if_neg hother]
    exact server.modseq_unused other ((le_max_left _ _).trans hunused)

end ServerMailbox

/-- What happens to a mailbox while it keeps its UIDVALIDITY. A UID is not used twice. -/
inductive Changes : ServerMailbox → ServerMailbox → Prop where
  | refl (server : ServerMailbox) : Changes server server
  | change {before server : ServerMailbox} (hchanges : Changes before server) (uid : ImapUid)
    (message : Option ServerMessage) (modseq : ImapModSeq) (huid : 0 < uid) (hnew : server.highest_modseq < modseq)
    (hthere : (server.message uid).isSome ∨ server.uid_next ≤ uid ∧ message.isSome) :
    Changes before (server.change uid message modseq huid hnew)

/-- What happens to it at all: changes, and new incarnations with a greater UIDVALIDITY. -/
inductive Later : ServerMailbox → ServerMailbox → Prop where
  | changes {before after : ServerMailbox} (hchanges : Changes before after) : Later before after
  | reset {before server after : ServerMailbox} (hlater : Later before server)
    (hvalidity : server.uid_validity < after.uid_validity) : Later before after
  | trans {before server after : ServerMailbox} (hlater : Later before server) (hchanges : Changes server after) :
    Later before after

/-- What an earlier state of a mailbox says of a later one. -/
structure Precedes (before after : ServerMailbox) : Prop where
  uid_validity : before.uid_validity = after.uid_validity
  highest_modseq : before.highest_modseq ≤ after.highest_modseq
  modseq : ∀ uid, before.modseq uid ≤ after.modseq uid
  unchanged : ∀ uid, before.modseq uid = after.modseq uid → before.message uid = after.message uid
  old : ∀ uid, after.modseq uid ≤ before.highest_modseq → before.modseq uid = after.modseq uid

namespace Precedes

variable {before middle after : ServerMailbox} {uid : ImapUid}

theorem refl (server : ServerMailbox) : Precedes server server where
  uid_validity := rfl
  highest_modseq := le_refl _
  modseq _ := le_refl _
  unchanged _ _ := rfl
  old _ _ := rfl

theorem trans (hfirst : Precedes before middle) (hsecond : Precedes middle after) : Precedes before after where
  uid_validity := hfirst.uid_validity.trans hsecond.uid_validity
  highest_modseq := hfirst.highest_modseq.trans hsecond.highest_modseq
  modseq uid := (hfirst.modseq uid).trans (hsecond.modseq uid)
  unchanged uid hsame := by
    have hmiddle : middle.modseq uid = after.modseq uid :=
      le_antisymm (hsecond.modseq uid) (hsame.symm.trans_le (hfirst.modseq uid))
    rw [hfirst.unchanged uid (hsame.trans hmiddle.symm), hsecond.unchanged uid hmiddle]
  old uid hle := by
    have hmiddle := hsecond.old uid (hle.trans hfirst.highest_modseq)
    rw [hfirst.old uid (hmiddle.trans_le hle), hmiddle]

theorem shown (hprecedes : Precedes before after) (hsame : before.modseq uid = after.modseq uid) :
    before.shown uid = after.shown uid := by
  unfold ServerMailbox.shown
  rw [hprecedes.unchanged uid hsame]

/-- Between two states that agree on a message, every state does. -/
theorem between (hfirst : Precedes before middle) (hsecond : Precedes middle after)
    (hsame : before.modseq uid = after.modseq uid) : middle.modseq uid = after.modseq uid :=
  le_antisymm (hsecond.modseq uid) (hsame.symm.trans_le (hfirst.modseq uid))

end Precedes

theorem precedes_change (server : ServerMailbox) (uid : ImapUid) (message : Option ServerMessage) (modseq : ImapModSeq)
    (huid : 0 < uid) (hnew : server.highest_modseq < modseq) :
    Precedes server (server.change uid message modseq huid hnew) where
  uid_validity := rfl
  highest_modseq := hnew.le
  modseq other := by
    unfold ServerMailbox.change
    simp only
    split_ifs
    · exact (server.modseq_le other).trans hnew.le
    · exact le_refl _
  unchanged other hsame := by
    have hle := server.modseq_le other
    unfold ServerMailbox.change at hsame ⊢
    simp only at hsame ⊢
    split_ifs at hsame ⊢ with hother
    · exact absurd (hsame.symm.trans_le hle) (not_le_of_gt hnew)
    · rfl
  old other hle := by
    unfold ServerMailbox.change at hle ⊢
    simp only at hle ⊢
    split_ifs at hle ⊢ with hother
    · exact absurd hle (not_le_of_gt hnew)
    · rfl

theorem Changes.precedes {before after : ServerMailbox} (hchanges : Changes before after) : Precedes before after := by
  induction hchanges with
  | refl => exact .refl _
  | change _ uid message modseq huid hnew _ ih => exact ih.trans (precedes_change _ uid message modseq huid hnew)

/-- Later states have a greater UIDVALIDITY, or are the same incarnation. -/
theorem Later.precedes_or_reset {before after : ServerMailbox} (hlater : Later before after) :
    Precedes before after ∨ before.uid_validity < after.uid_validity := by
  induction hlater with
  | changes hchanges => exact Or.inl hchanges.precedes
  | reset _ hvalidity ih =>
    obtain hprecedes | hless := ih
    · exact Or.inr (hprecedes.uid_validity.trans_lt hvalidity)
    · exact Or.inr (hless.trans hvalidity)
  | trans _ hchanges ih =>
    obtain hprecedes | hless := ih
    · exact Or.inl (hprecedes.trans hchanges.precedes)
    · exact Or.inr (hless.trans_eq hchanges.precedes.uid_validity)

section Answers

variable {server : ServerMailbox} {uid : ImapUid}

theorem mem_undeleted : uid ∈ server.undeleted ↔ (server.shown uid).isSome := by
  unfold ServerMailbox.undeleted
  rw [List.mem_filter, List.mem_range, and_iff_right_iff_imp]
  intro hshown
  apply server.message_lt
  unfold ServerMailbox.shown at hshown
  cases hmessage : server.message uid with
  | none =>
    rw [hmessage] at hshown
    exact absurd hshown Bool.false_ne_true
  | some message => rfl

theorem undeleted_nodup : server.undeleted.Nodup := List.nodup_range.filter _

/-- The header a fetch brings of a message. -/
theorem find_fetch (fetch_modseq : Bool) (uids : List ImapUid) :
    (server.fetch fetch_modseq uids).find? (·.uid = uid) =
      if uid ∈ uids then (server.message uid).map (server.header fetch_modseq uid) else none := by
  unfold ServerMailbox.fetch
  induction uids with
  | nil => rfl
  | cons first rest ih =>
    cases hmessage : server.message first with
    | none =>
      rw [List.filterMap_cons_none (by rw [hmessage]; rfl), ih]
      by_cases hfirst : uid = first
      · rw [hfirst, hmessage]
        simp
      · simp [hfirst]
    | some message =>
      rw [List.filterMap_cons_some (by rw [hmessage]; rfl), List.find?_cons, ih]
      by_cases hfirst : uid = first
      · rw [hfirst, hmessage]
        simp [ServerMailbox.header]
      · have hne : first ≠ uid := fun hsame => hfirst hsame.symm
        simp [ServerMailbox.header, hne, hfirst]

/-- A fetched header carries a MODSEQ the mailbox had then. -/
theorem modseq_of_mem_fetch {fetch_modseq : Bool} {uids : List ImapUid} {header : ImapFetchedHeader}
    (hmem : header ∈ server.fetch fetch_modseq uids) {modseq : ImapModSeq} (hmodseq : header.modseq = some modseq) :
    modseq ≤ server.highest_modseq := by
  obtain ⟨first, _, hheader⟩ := List.mem_filterMap.mp hmem
  obtain ⟨message, _, rfl⟩ := Option.map_eq_some_iff.mp hheader
  unfold ServerMailbox.header at hmodseq
  simp only at hmodseq
  split_ifs at hmodseq
  cases hmodseq
  exact server.modseq_le first

theorem shown_of_isDeleted (hdeleted : server.isDeleted uid = true) : server.shown uid = none := by
  unfold ServerMailbox.isDeleted at hdeleted
  unfold ServerMailbox.shown
  cases hmessage : server.message uid with
  | none => rfl
  | some message =>
    rw [hmessage] at hdeleted
    exact if_pos hdeleted

theorem shown_of_not_isDeleted (hdeleted : server.isDeleted uid = false) :
    server.shown uid = (server.message uid).map ServerMessage.keywords := by
  unfold ServerMailbox.isDeleted at hdeleted
  unfold ServerMailbox.shown
  cases hmessage : server.message uid with
  | none => rfl
  | some message =>
    rw [hmessage] at hdeleted
    exact if_neg (Bool.eq_false_iff.mp hdeleted)

theorem keywords_of_shown (hshown : (server.shown uid).isSome) :
    (server.message uid).map ServerMessage.keywords = server.shown uid := by
  cases hdeleted : server.isDeleted uid with
  | true =>
    rw [shown_of_isDeleted hdeleted] at hshown
    exact absurd hshown Bool.false_ne_true
  | false => exact (shown_of_not_isDeleted hdeleted).symm

theorem mem_changedUids {since_modseq : ImapModSeq} :
    uid ∈ server.changedUids since_modseq ↔ since_modseq < server.modseq uid := by
  unfold ServerMailbox.changedUids
  rw [List.mem_filter, List.mem_range, decide_eq_true_iff, and_iff_right_iff_imp]
  intro hchanged
  by_contra hunused
  rw [server.modseq_unused uid (not_lt.mp hunused)] at hchanged
  exact Nat.not_lt_zero _ hchanged

/-- The keywords a CHANGEDSINCE answer brings of a message. -/
theorem find_changedSince (since_modseq : ImapModSeq) :
    ((server.changedSince since_modseq).find? (·.uid = uid)).map ImapFetchedHeader.keywords =
      if since_modseq < server.modseq uid then server.shown uid else none := by
  unfold ServerMailbox.changedSince
  simp only [find_fetch, List.mem_filter, mem_changedUids]
  by_cases hshown : (server.shown uid).isSome
  · split_ifs with hboth hchanged hchanged
    · rw [Option.map_map, ← keywords_of_shown hshown]
      rfl
    · exact absurd hboth.1 hchanged
    · exact absurd ⟨hchanged, hshown⟩ hboth
    · rfl
  · rw [if_neg fun hboth => hshown hboth.2, Option.not_isSome_iff_eq_none.mp hshown, ite_self]
    rfl

theorem mem_vanishedSince {since_modseq : ImapModSeq} :
    uid ∈ server.vanishedSince since_modseq ↔ since_modseq < server.modseq uid ∧ server.shown uid = none := by
  unfold ServerMailbox.vanishedSince
  rw [List.mem_filter, mem_changedUids, Option.isNone_iff_eq_none]

end Answers

end posthaste.imap
