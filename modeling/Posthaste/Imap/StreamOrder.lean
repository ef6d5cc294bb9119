import Posthaste.Imap.Survival
import Posthaste.Imap.Membership

open posthaste.model posthaste.store

namespace posthaste.imap

namespace StreamedCycle

section Statement

variable (cycle : StreamedCycle)

/-- The chunks of the initial mailboxes, streamed in this order. -/
def streamedIn (order : List PlannedImapMailbox) : List ImapSyncBatch :=
  order.flatMap (stream_initial_mailbox_snapshot cycle.discovery cycle.replies)

/-- The batches of the cycle when the initial mailboxes are streamed in this order. -/
def batchesIn (order : List PlannedImapMailbox) : List ImapSyncBatch :=
  if order.isEmpty then [cycle.restBatch]
  else
    imap_mailbox_sync_batch cycle.discovery :: cycle.streamedIn order ++
      if cycle.rest.isEmpty then [] else [cycle.restOnly]

/-- Two orders of the initial mailboxes leave the same memberships. -/
def OrderIndependent : Prop :=
  ∀ first second, first.Perm cycle.initial → second.Perm cycle.initial → ∀ afterFirst afterSecond,
    (cycle.batchesIn first).foldlM ImapStore.apply_sync_batch cycle.store = .ok afterFirst →
      (cycle.batchesIn second).foldlM ImapStore.apply_sync_batch cycle.store = .ok afterSecond →
        ∀ place, place ∈ afterFirst.base.memberships ↔ place ∈ afterSecond.base.memberships

/-- The mailboxes that the last record of the message in these streams lists. -/
def listedIn (order : List PlannedImapMailbox) (message_id : MessageId) : Option (List MailboxId) :=
  (((cycle.streamedIn order).flatMap ImapSyncBatch.messages).reverse.find? (·.id = message_id)).map MessageRecord.mailbox_ids

/-- The deltas bring the message, or give it up. -/
def SettledByDeltas (store : ImapStore) (message_id : MessageId) : Prop :=
  (∃ header ∈ cycle.described, header.location.message_id = message_id) ∨ cycle.GivenUp store message_id

/-- The deltas take a known location at this place. -/
def TakenByDeltas (store : ImapStore) (place : MessageId × MailboxId) : Prop :=
  ∃ location ∈ cycle.known, location.place = place ∧ (cycle.Asserted location.key ∨
    identityOf location.key ∈ cycle.rest.flatMap (·.unlisted cycle.replies) ∧
      store.base.imap_absence_prune_allowed cycle.inferredGone.length = true)

/-- The streams that bring a message list the same mailboxes for it last, where the deltas do not decide. -/
def StreamsAgree : Prop :=
  ∀ before, cycle.upserts.foldlM ImapStore.apply_sync_batch cycle.store = .ok before →
    ∀ message_id, ¬cycle.SettledByDeltas before message_id → ∀ first ∈ cycle.initial, ∀ second ∈ cycle.initial,
      ∀ firstListed secondListed, cycle.listedIn [first] message_id = some firstListed →
        cycle.listedIn [second] message_id = some secondListed →
          ∀ mailbox_id, ¬cycle.TakenByDeltas before (message_id, mailbox_id) →
            (mailbox_id ∈ firstListed ↔ mailbox_id ∈ secondListed)

end Statement

variable {cycle : StreamedCycle} {message_id : MessageId}

section Chunks

variable {batches : List ImapSyncBatch} {before after : ImapStore}

/-- A streamed chunk only writes its records and its locations. -/
theorem apply_chunk {discovery : DiscoveredImapAccount} {headers : List ImapMappedHeader} {state : ImapMailboxSyncState}
    (happly : before.apply_sync_batch (imap_initial_snapshot_chunk_batch discovery headers state) = .ok after) :
    (∀ id, after.base.message.lookup id =
      rowAfter (imap_initial_snapshot_chunk_batch discovery headers state).messages id (before.base.message.lookup id)) ∧
      ∀ location ∈ before.location.rows, location.place ∉
        (imap_initial_snapshot_chunk_batch discovery headers state).imap_message_locations.map ImapMessageLocation.place →
          location ∈ after.location.rows := by
  obtain ⟨hrows, hlocations, _⟩ := ImapStore.apply_sync_batch_ok happly
  constructor
  · intro id
    rw [hrows, ImapStore.lookup_applyRemovals, if_neg]
    · congr 1
      exact Option.map_id_apply
    · rw [ImapStore.mem_batchDeletions]
      rintro (hgone | ⟨_, hgone⟩) <;> exact absurd hgone List.not_mem_nil
  · intro location hstored huntouched
    rw [hlocations]
    exact ImapStore.mem_putAll_of_untouched (mem_location_chunk.mpr hstored) huntouched

/-- Streams write their records one after the other, and only places in their mailboxes. -/
theorem run_streams {order : List PlannedImapMailbox}
    (hrun : (cycle.streamedIn order).foldlM ImapStore.apply_sync_batch before = .ok after) :
    (∀ id, after.base.message.lookup id =
      rowAfter ((cycle.streamedIn order).flatMap ImapSyncBatch.messages) id (before.base.message.lookup id)) ∧
      ∀ location ∈ before.location.rows, location.mailbox_id ∉ order.map (·.id) → location ∈ after.location.rows := by
  have hchunks : ∀ batch ∈ cycle.streamedIn order, ∃ headers state mailbox_id,
      batch = imap_initial_snapshot_chunk_batch cycle.discovery headers state ∧ (∀ header ∈ headers, header.Sound) ∧
        (∀ header ∈ headers, header.location.mailbox_id = mailbox_id) ∧ mailbox_id ∈ order.map (·.id) := by
    intro batch hbatch
    obtain ⟨mailbox, hmailbox, hstream⟩ := List.mem_flatMap.mp hbatch
    obtain ⟨headers, state, heq, hsound, hselected⟩ := mem_stream hstream
    exact ⟨headers, state, mailbox.id, heq, hsound, hselected, List.mem_map_of_mem hmailbox⟩
  revert hrun hchunks
  generalize cycle.streamedIn order = batches
  intro hrun hchunks
  induction batches generalizing before with
  | nil =>
    cases hrun
    exact ⟨fun _ => rfl, fun _ hstored _ => hstored⟩
  | cons batch rest ih =>
    obtain ⟨headers, state, mailbox_id, rfl, hsound, hselected, hlisted⟩ := hchunks batch List.mem_cons_self
    rw [List.foldlM_cons] at hrun
    cases happly : before.apply_sync_batch (imap_initial_snapshot_chunk_batch cycle.discovery headers state) with
    | error failure =>
      rw [happly] at hrun
      cases hrun
    | ok middle =>
      rw [happly] at hrun
      obtain ⟨hrows, hkept⟩ := apply_chunk happly
      obtain ⟨hrestRows, hrestKept⟩ := ih hrun fun other hother => hchunks other (List.mem_cons_of_mem _ hother)
      constructor
      · intro id
        rw [hrestRows, hrows, List.flatMap_cons, rowAfter_append]
      · intro location hstored houtside
        refine hrestKept location (hkept location hstored ?_) houtside
        intro hplace
        obtain ⟨other, hother, hsame⟩ := List.mem_map.mp hplace
        obtain ⟨header, hheader, rfl⟩ := List.mem_map.mp hother
        obtain ⟨original, horiginal, hmailbox⟩ := mailbox_project hheader
        have hselectedId : location.mailbox_id = mailbox_id := by
          rw [← hselected original horiginal, hmailbox]
          exact (congrArg Prod.snd hsame).symm
        exact houtside (hselectedId ▸ hlisted)

theorem listedIn_append (first second : List PlannedImapMailbox) :
    cycle.listedIn (first ++ second) message_id = (cycle.listedIn second message_id).or (cycle.listedIn first message_id) := by
  unfold listedIn streamedIn
  rw [List.flatMap_append, List.flatMap_append, List.reverse_append, List.find?_append, Option.map_or]

/-- Some stream of the order lists the message last. -/
theorem listedIn_some {order : List PlannedImapMailbox} {listed : List MailboxId}
    (hlisted : cycle.listedIn order message_id = some listed) :
    ∃ mailbox ∈ order, cycle.listedIn [mailbox] message_id = some listed := by
  induction order with
  | nil => cases hlisted
  | cons mailbox rest ih =>
    rw [show mailbox :: rest = [mailbox] ++ rest from rfl, listedIn_append, Option.or_eq_some_iff] at hlisted
    obtain hrest | ⟨_, hfirst⟩ := hlisted
    · obtain ⟨other, hother, heq⟩ := ih hrest
      exact ⟨other, List.mem_cons_of_mem _ hother, heq⟩
    · exact ⟨mailbox, List.mem_cons_self, hfirst⟩

theorem listedIn_none {order : List PlannedImapMailbox} :
    cycle.listedIn order message_id = none ↔ ∀ mailbox ∈ order, cycle.listedIn [mailbox] message_id = none := by
  induction order with
  | nil => simp [listedIn, streamedIn]
  | cons mailbox rest ih =>
    rw [show mailbox :: rest = [mailbox] ++ rest from rfl, listedIn_append, Option.or_eq_none_iff, ih]
    simp only [List.singleton_append, List.forall_mem_cons]
    tauto

/-- The memberships after the streams are those listed last, or those of before. -/
theorem mem_memberships_streamed {order : List PlannedImapMailbox}
    (hrun : (cycle.streamedIn order).foldlM ImapStore.apply_sync_batch before = .ok after) {place : MessageId × MailboxId} :
    place ∈ after.base.memberships ↔
      (cycle.listedIn order place.1).elim (place ∈ before.base.memberships) (place.2 ∈ ·) := by
  have hrow := mailbox_ids_rowAfter ((cycle.streamedIn order).flatMap ImapSyncBatch.messages) place.1
    (before.base.message.lookup place.1)
  rw [← (run_streams hrun).1] at hrow
  have hmember : ∀ store : ImapStore, place ∈ store.base.memberships ↔
      ∃ mailbox_ids, (store.base.message.lookup place.1).map MessageRow.mailbox_ids = some mailbox_ids ∧
        place.2 ∈ mailbox_ids := by
    intro store
    rw [DatabaseStore.mem_memberships]
    constructor
    · rintro ⟨row, hlookup, hmem⟩
      exact ⟨row.mailbox_ids, by rw [hlookup]; rfl, hmem⟩
    · rintro ⟨mailbox_ids, hlookup, hmem⟩
      obtain ⟨row, hfound, rfl⟩ := Option.map_eq_some_iff.mp hlookup
      exact ⟨row, hfound, hmem⟩
  rw [hmember, hrow]
  unfold listedIn
  cases hlast : ((cycle.streamedIn order).flatMap ImapSyncBatch.messages).reverse.find? (·.id = place.1) with
  | none => exact (hmember before).symm
  | some last => simp

/-- A message is stored after the streams when it was, or when one of them lists it. -/
theorem isSome_lookup_streamed {order : List PlannedImapMailbox}
    (hrun : (cycle.streamedIn order).foldlM ImapStore.apply_sync_batch before = .ok after) {id : MessageId} :
    (after.base.message.lookup id).isSome =
      ((cycle.listedIn order id).isSome || (before.base.message.lookup id).isSome) := by
  have hrow := mailbox_ids_rowAfter ((cycle.streamedIn order).flatMap ImapSyncBatch.messages) id
    (before.base.message.lookup id)
  rw [← (run_streams hrun).1] at hrow
  rw [← @Option.isSome_map _ _ MessageRow.mailbox_ids, hrow, Option.isSome_or, Option.isSome_map, Option.isSome_map]
  unfold listedIn
  rw [Option.isSome_map]

end Chunks

section Rest

variable {before after : ImapStore}

/-- The plan of a mailbox goes by its id, so a mailbox is either streamed or not. -/
theorem rest_not_initial {mailbox : PlannedImapMailbox} (hmem : mailbox ∈ cycle.rest) :
    mailbox.id ∉ cycle.initial.map (·.id) := by
  intro hinitial
  obtain ⟨other, hother, hid⟩ := List.mem_map.mp hinitial
  obtain ⟨hplanned, hunstreamed⟩ := List.mem_filter.mp hmem
  obtain ⟨hotherPlanned, hstreamed⟩ := List.mem_filter.mp hother
  obtain ⟨first, _, rfl⟩ := List.mem_map.mp hplanned
  obtain ⟨second, _, rfl⟩ := List.mem_map.mp hotherPlanned
  have hsame : plan_mailbox cycle.store cycle.discovery.capabilities cycle.replies second =
      plan_mailbox cycle.store cycle.discovery.capabilities cycle.replies first := by
    have hfirst : second.id = first.id := hid
    unfold plan_mailbox
    rw [hfirst]
  rw [hsame] at hstreamed
  rw [hstreamed] at hunstreamed
  cases hunstreamed

theorem listed_rest {mailbox : PlannedImapMailbox} (hmem : mailbox ∈ cycle.rest) :
    mailbox.id ∈ (cycle.discovery.mailboxes.filter (·.selectable)).map (·.id) := by
  obtain ⟨discovered, hdiscovered, rfl⟩ := List.mem_map.mp (List.mem_filter.mp hmem).1
  exact List.mem_map_of_mem hdiscovered

/-- What the deltas know is still stored when they apply. -/
theorem known_kept {order : List PlannedImapMailbox} (horder : order.Perm cycle.initial)
    (hrun : (imap_mailbox_sync_batch cycle.discovery :: cycle.streamedIn order).foldlM ImapStore.apply_sync_batch
      cycle.store = .ok before) {location : ImapMessageLocation} (hknown : location ∈ cycle.known) :
    location ∈ before.location.rows := by
  obtain ⟨mailbox, hmailbox, hlocal⟩ := List.mem_flatMap.mp hknown
  rw [mem_rest hmailbox] at hlocal
  obtain ⟨hstored, hid⟩ := List.mem_filter.mp hlocal
  have hmailboxId : location.mailbox_id = mailbox.id := of_decide_eq_true hid
  rw [List.foldlM_cons] at hrun
  cases happly : cycle.store.apply_sync_batch (imap_mailbox_sync_batch cycle.discovery) with
  | error failure =>
    rw [happly] at hrun
    cases hrun
  | ok middle =>
    rw [happly] at hrun
    refine (run_streams hrun).2 location ?_ ?_
    · rw [(ImapStore.apply_sync_batch_ok happly).2.1]
      refine (mem_location_left rfl rfl ?_).mpr ⟨hstored, ?_, List.not_mem_nil, fun hgone => absurd hgone.2 List.not_mem_nil⟩
      · rw [ImapStore.mem_batchDeletions]
        rintro (hgone | ⟨_, hgone⟩) <;> exact absurd hgone List.not_mem_nil
      · refine DatabaseStore.not_mem_prunedMailboxes ?_
        show location.mailbox_id ∈ List.map Mailbox.id (List.map _ _)
        rw [List.map_map, hmailboxId]
        exact listed_rest hmailbox
    · rw [hmailboxId]
      exact fun hlisted => rest_not_initial hmailbox ((horder.map _).mem_iff.mp hlisted)

variable (hrest : cycle.rest ≠ [])

include hrest

theorem messages_restOnly :
    cycle.restOnly.messages = deltaMessages cycle.described cycle.known (cycle.assertedKeys ++ cycle.inferredKeys) := by
  unfold restOnly
  rw [restBatch_eq hrest]
  rfl

theorem departures_restOnly : cycle.restOnly.deleted_imap_message_locations = cycle.assertedKeys ∧
    cycle.restOnly.absence_deleted_imap_message_locations = cycle.inferredKeys := by
  unfold restOnly
  rw [restBatch_eq hrest]
  exact ⟨rfl, rfl⟩

theorem listed_restOnly : ImapStore.Listed cycle.restOnly := by
  refine listed_deltaMessages (fun header hheader => sound_project sound_rest hheader) ?_ (messages_restOnly hrest)
    (locations_restOnly hrest)
  intro location hlocation hplace
  refine List.mem_append_left _ (mem_authoritative.mpr ⟨List.mem_map_of_mem hlocation, Or.inr ?_⟩)
  exact mem_provider_absent.mp hplace

theorem written_restOnly_iff : (∃ record ∈ cycle.restOnly.messages, record.id = message_id) ↔
    ∃ header ∈ cycle.described, header.location.message_id = message_id := by
  constructor
  · rintro ⟨record, hrecord, rfl⟩
    exact mem_messages_restOnly hrest hrecord
  · rintro ⟨header, hheader, rfl⟩
    obtain ⟨original, horiginal, hid⟩ := projected_record hheader
    have hids : original.id ∈ cycle.restOnly.messages.map MessageRecord.id := by
      rw [messages_restOnly hrest]
      unfold deltaMessages
      rw [preserve_ids]
      exact List.mem_map_of_mem horiginal
    obtain ⟨record, hrecord, hsame⟩ := List.mem_map.mp hids
    exact ⟨record, hrecord, hsame.trans (hid.trans (sound_project sound_rest hheader).named.symm)⟩

/-- A membership of a message the deltas do not delete goes with the location they take. -/
theorem departing_restOnly_iff (hkept : ∀ location ∈ cycle.known, location ∈ before.location.rows)
    {place : MessageId × MailboxId} (hstays : place.1 ∉ before.batchDeletions cycle.restOnly) :
    place ∈ ImapStore.departing (before.batchDepartures cycle.restOnly) before.location ↔
      cycle.TakenByDeltas before place := by
  have hallows : before.allowsAbsence cycle.restOnly = before.base.imap_absence_prune_allowed cycle.inferredGone.length := by
    unfold ImapStore.allowsAbsence
    rw [absence_restOnly hrest]
  have hdeparts : ∀ key, key.message_id = place.1 → (key ∈ before.batchDepartures cycle.restOnly ↔
      key ∈ cycle.assertedKeys ∨ before.base.imap_absence_prune_allowed cycle.inferredGone.length = true ∧
        key ∈ cycle.inferredKeys) := by
    intro key hid
    have hkeyStays : decide (key.message_id ∉ before.batchDeletions cycle.restOnly) = true := by
      rw [hid]
      exact decide_eq_true hstays
    unfold ImapStore.batchDepartures
    rw [(departures_restOnly hrest).1, (departures_restOnly hrest).2, hallows]
    simp only
    rw [List.mem_filter, and_iff_left hkeyStays, List.mem_append]
    cases before.base.imap_absence_prune_allowed cycle.inferredGone.length <;> simp
  rw [ImapStore.mem_departing]
  unfold TakenByDeltas
  constructor
  · rintro ⟨key, hkey, _, rfl⟩
    obtain hasserted | ⟨hallowed, hinferred⟩ := (hdeparts key rfl).mp hkey
    · obtain ⟨hlocal, hgone⟩ := mem_authoritative.mp hasserted
      obtain ⟨location, hlocation, rfl⟩ := List.mem_map.mp hlocal
      exact ⟨location, hlocation, rfl, Or.inl hgone⟩
    · obtain ⟨hlocal, hgone, _⟩ := mem_absenceKeys.mp hinferred
      obtain ⟨location, hlocation, rfl⟩ := List.mem_map.mp hlocal
      exact ⟨location, hlocation, rfl, Or.inr ⟨hgone, hallowed⟩⟩
  · rintro ⟨location, hlocation, rfl, hgone⟩
    refine ⟨location.key, (hdeparts location.key rfl).mpr ?_, List.mem_map_of_mem (hkept location hlocation), rfl⟩
    by_cases hasserted : cycle.Asserted location.key
    · exact Or.inl (mem_authoritative.mpr ⟨List.mem_map_of_mem hlocation, hasserted⟩)
    · obtain ⟨hunlisted, hallowed⟩ := hgone.resolve_left hasserted
      refine Or.inr ⟨hallowed, mem_absenceKeys.mpr ⟨List.mem_map_of_mem hlocation, hunlisted, ?_⟩⟩
      exact fun hmem => hasserted (mem_authoritative.mp hmem).2

/-- The memberships the deltas leave of a message they do not bring. -/
theorem mem_memberships_rest (hkept : ∀ location ∈ cycle.known, location ∈ before.location.rows)
    (happly : before.apply_sync_batch cycle.restOnly = .ok after) {place : MessageId × MailboxId}
    (hundescribed : ¬∃ header ∈ cycle.described, header.location.message_id = place.1) :
    place ∈ after.base.memberships ↔
      place ∈ before.base.memberships ∧ ¬cycle.GivenUp before place.1 ∧ ¬cycle.TakenByDeltas before place := by
  obtain ⟨hmessages, hdeleted⟩ := unpruned_restOnly hrest
  have habsent : ∀ record ∈ cycle.restOnly.messages, record.id ≠ place.1 :=
    fun record hrecord hid => hundescribed ((written_restOnly_iff hrest).mp ⟨record, hrecord, hid⟩)
  rw [ImapStore.mem_memberships_unwritten happly habsent, ImapStore.mem_memberships_applyRemovals,
    ImapStore.beforeDeletions_of_unpruned rfl hmessages hdeleted]
  apply and_congr_right
  intro hmember
  have hgiven : place.1 ∈ before.batchDeletions cycle.restOnly ↔ cycle.GivenUp before place.1 := by
    obtain ⟨row, hrow, _⟩ := DatabaseStore.mem_memberships.mp hmember
    rw [mem_batchDeletions_restOnly hrest]
    unfold GivenUp
    rw [hrow]
    exact (and_iff_right rfl).symm
  rw [← hgiven]
  apply and_congr_right
  intro hstays
  rw [departing_restOnly_iff hrest hkept hstays]

end Rest

section Orders

variable {order : List PlannedImapMailbox} {before after : ImapStore}

theorem described_nil (hrest : cycle.rest = []) : cycle.described = [] := by
  unfold described project_imap_headers
  rw [hrest]
  split_ifs <;> rfl

theorem known_nil (hrest : cycle.rest = []) : cycle.known = [] := by
  unfold known
  rw [hrest]
  rfl

/-- A run of the cycle streams first, and then applies the deltas. -/
theorem run_batchesIn (horder : order ≠ [])
    (hrun : (cycle.batchesIn order).foldlM ImapStore.apply_sync_batch cycle.store = .ok after) :
    ∃ before, (imap_mailbox_sync_batch cycle.discovery :: cycle.streamedIn order).foldlM ImapStore.apply_sync_batch
      cycle.store = .ok before ∧ (cycle.rest = [] → after = before) ∧
        (cycle.rest ≠ [] → before.apply_sync_batch cycle.restOnly = .ok after) := by
  unfold batchesIn at hrun
  rw [if_neg (by rwa [List.isEmpty_iff]), List.foldlM_append] at hrun
  cases hstreams : (imap_mailbox_sync_batch cycle.discovery :: cycle.streamedIn order).foldlM
      ImapStore.apply_sync_batch cycle.store with
  | error failure =>
    rw [hstreams] at hrun
    cases hrun
  | ok before =>
    rw [hstreams] at hrun
    refine ⟨before, rfl, fun hrest => ?_, fun hrest => ?_⟩
    · rw [hrest] at hrun
      cases hrun
      rfl
    · rw [if_neg (by rwa [List.isEmpty_iff])] at hrun
      cases happly : before.apply_sync_batch cycle.restOnly with
      | error failure =>
        have hfailed : ([cycle.restOnly].foldlM ImapStore.apply_sync_batch before) = .error failure := by
          rw [List.foldlM_cons, happly]
          rfl
        rw [show [cycle.restOnly].foldlM ImapStore.apply_sync_batch before = .ok after from hrun] at hfailed
        cases hfailed
      | ok applied =>
        have happlied : ([cycle.restOnly].foldlM ImapStore.apply_sync_batch before) = .ok applied := by
          rw [List.foldlM_cons, happly]
          rfl
        rw [show [cycle.restOnly].foldlM ImapStore.apply_sync_batch before = .ok after from hrun] at happlied
        exact happlied.symm

/-- The memberships at the end of a cycle that streamed in this order. -/
theorem mem_memberships_batchesIn (horder : order.Perm cycle.initial) (hne : order ≠ [])
    (hrun : (cycle.batchesIn order).foldlM ImapStore.apply_sync_batch cycle.store = .ok after) :
    ∃ before, (imap_mailbox_sync_batch cycle.discovery :: cycle.streamedIn order).foldlM ImapStore.apply_sync_batch
      cycle.store = .ok before ∧ ∀ place : MessageId × MailboxId,
        ((∃ header ∈ cycle.described, header.location.message_id = place.1) → (place ∈ after.base.memberships ↔
          ∃ record ∈ cycle.restOnly.messages, record.id = place.1 ∧ place.2 ∈ record.mailbox_ids)) ∧
        ((¬∃ header ∈ cycle.described, header.location.message_id = place.1) → (place ∈ after.base.memberships ↔
          place ∈ before.base.memberships ∧ ¬cycle.GivenUp before place.1 ∧ ¬cycle.TakenByDeltas before place)) := by
  obtain ⟨before, hbefore, hnone, hsome⟩ := run_batchesIn hne hrun
  refine ⟨before, hbefore, fun place => ?_⟩
  by_cases hrest : cycle.rest = []
  · rw [hnone hrest, described_nil hrest]
    constructor
    · rintro ⟨header, hheader, _⟩
      exact absurd hheader List.not_mem_nil
    · intro _
      constructor
      · refine fun hmember => ⟨hmember, ?_, ?_⟩
        · rintro ⟨_, ⟨⟨location, hlocation, _⟩, _⟩, _⟩
          rw [known_nil hrest] at hlocation
          exact absurd hlocation List.not_mem_nil
        · rintro ⟨location, hlocation, _⟩
          rw [known_nil hrest] at hlocation
          exact absurd hlocation List.not_mem_nil
      · exact And.left
  · have happly := hsome hrest
    have hkept := fun location => @known_kept cycle before order horder hbefore location
    refine ⟨fun hdescribed => ?_, mem_memberships_rest hrest hkept happly⟩
    obtain ⟨record, hrecord, hid⟩ := (written_restOnly_iff hrest).mpr hdescribed
    have hwritten := @ImapStore.mem_memberships_written before cycle.restOnly (listed_restOnly hrest) after happly
    constructor
    · intro hmember
      have hplace : (record.id, place.2) ∈ after.base.memberships := by
        rw [hid]
        exact hmember
      exact ⟨record, hrecord, hid, (hwritten hrecord).mp hplace⟩
    · rintro ⟨other, hother, hotherId, hlisted⟩
      have hplace := (hwritten hother).mpr hlisted
      rw [hotherId] at hplace
      exact hplace

/-- Two orders agree on which messages are stored after the streams. -/
theorem stored_same {other : List PlannedImapMailbox} {otherBefore : ImapStore} (horder : order.Perm other)
    (hrun : (imap_mailbox_sync_batch cycle.discovery :: cycle.streamedIn order).foldlM ImapStore.apply_sync_batch
      cycle.store = .ok before)
    (hotherRun : (imap_mailbox_sync_batch cycle.discovery :: cycle.streamedIn other).foldlM ImapStore.apply_sync_batch
      cycle.store = .ok otherBefore) :
    ∃ middle, (cycle.streamedIn order).foldlM ImapStore.apply_sync_batch middle = .ok before ∧
      (cycle.streamedIn other).foldlM ImapStore.apply_sync_batch middle = .ok otherBefore ∧
        ∀ id, (before.base.message.lookup id).isSome = (otherBefore.base.message.lookup id).isSome := by
  rw [List.foldlM_cons] at hrun hotherRun
  cases happly : cycle.store.apply_sync_batch (imap_mailbox_sync_batch cycle.discovery) with
  | error failure =>
    rw [happly] at hrun
    cases hrun
  | ok middle =>
    rw [happly] at hrun hotherRun
    refine ⟨middle, hrun, hotherRun, fun id => ?_⟩
    have hlisted : (cycle.listedIn order id).isSome = (cycle.listedIn other id).isSome := by
      rw [Bool.eq_iff_iff, Option.isSome_iff_ne_none, Option.isSome_iff_ne_none, not_iff_not, listedIn_none, listedIn_none]
      exact forall_congr' fun mailbox => imp_congr_left horder.mem_iff
    rw [isSome_lookup_streamed hrun, isSome_lookup_streamed hotherRun, hlisted]

theorem givenUp_congr {first second : ImapStore}
    (hsame : ∀ id, (first.base.message.lookup id).isSome = (second.base.message.lookup id).isSome) :
    cycle.GivenUp first message_id ↔ cycle.GivenUp second message_id := by
  unfold GivenUp
  rw [hsame, DatabaseStore.imap_absence_prune_allowed_congr hsame]

theorem takenByDeltas_congr {first second : ImapStore}
    (hsame : ∀ id, (first.base.message.lookup id).isSome = (second.base.message.lookup id).isSome)
    {place : MessageId × MailboxId} : cycle.TakenByDeltas first place ↔ cycle.TakenByDeltas second place := by
  unfold TakenByDeltas
  rw [DatabaseStore.imap_absence_prune_allowed_congr hsame]

/-- Streaming any order succeeds. -/
theorem run_exists (order : List PlannedImapMailbox) :
    (∃ before, (imap_mailbox_sync_batch cycle.discovery :: cycle.streamedIn order).foldlM ImapStore.apply_sync_batch
      cycle.store = .ok before) ∧ (order ≠ [] →
        ∃ after, (cycle.batchesIn order).foldlM ImapStore.apply_sync_batch cycle.store = .ok after) := by
  have hwritable : ∀ batch ∈ imap_mailbox_sync_batch cycle.discovery :: cycle.streamedIn order,
      ∀ record ∈ batch.messages, record.mailbox_ids.Nodup ∧ record.keywords.Nodup := by
    intro batch hbatch
    obtain rfl | hbatch := List.mem_cons.mp hbatch
    · exact fun record hrecord => absurd hrecord List.not_mem_nil
    · obtain ⟨mailbox, _, hstream⟩ := List.mem_flatMap.mp hbatch
      obtain ⟨headers, state, rfl, hsound, _⟩ := mem_stream hstream
      exact chunk_writable hsound
  refine ⟨foldlM_apply_of_nodup hwritable, fun hne => foldlM_apply_of_nodup ?_⟩
  unfold batchesIn
  rw [if_neg (by rwa [List.isEmpty_iff])]
  intro batch hbatch
  obtain hbatch | hbatch := List.mem_append.mp hbatch
  · exact hwritable batch hbatch
  · split_ifs at hbatch with hrest
    · exact absurd hbatch List.not_mem_nil
    · rw [List.mem_singleton.mp hbatch]
      exact writable_restOnly fun hnone => hrest (List.isEmpty_iff.mpr hnone)

end Orders

section Agreement

theorem orderIndependent_of_streamsAgree (hagree : cycle.StreamsAgree) : cycle.OrderIndependent := by
  intro first second hfirst hsecond afterFirst afterSecond hrunFirst hrunSecond place
  by_cases hempty : cycle.initial = []
  · rw [hempty] at hfirst hsecond
    rw [hfirst.eq_nil] at hrunFirst
    rw [hsecond.eq_nil, hrunFirst] at hrunSecond
    cases hrunSecond
    exact Iff.rfl
  · have hfirstNe : first ≠ [] := fun hnil => hempty (List.nil_perm.mp (hnil ▸ hfirst))
    have hsecondNe : second ≠ [] := fun hnil => hempty (List.nil_perm.mp (hnil ▸ hsecond))
    obtain ⟨beforeFirst, hbeforeFirst, hmemFirst⟩ := mem_memberships_batchesIn hfirst hfirstNe hrunFirst
    obtain ⟨beforeSecond, hbeforeSecond, hmemSecond⟩ := mem_memberships_batchesIn hsecond hsecondNe hrunSecond
    obtain ⟨before, hbefore⟩ := (@run_exists cycle cycle.initial).1
    obtain ⟨middle, hstreamFirst, hstreamSecond, hsame⟩ := stored_same (hfirst.trans hsecond.symm) hbeforeFirst hbeforeSecond
    obtain ⟨_, _, _, hsameInitial⟩ := stored_same hfirst hbeforeFirst hbefore
    by_cases hdescribed : ∃ header ∈ cycle.described, header.location.message_id = place.1
    · rw [(hmemFirst place).1 hdescribed, (hmemSecond place).1 hdescribed]
    · rw [(hmemFirst place).2 hdescribed, (hmemSecond place).2 hdescribed, givenUp_congr hsame, takenByDeltas_congr hsame]
      apply and_congr_left
      rintro ⟨hkept, huntaken⟩
      rw [mem_memberships_streamed hstreamFirst, mem_memberships_streamed hstreamSecond]
      cases hlistedFirst : cycle.listedIn first place.1 with
      | none =>
        have hlistedSecond : cycle.listedIn second place.1 = none :=
          listedIn_none.mpr fun mailbox hmailbox =>
            listedIn_none.mp hlistedFirst mailbox ((hfirst.trans hsecond.symm).mem_iff.mpr hmailbox)
        rw [hlistedSecond]
      | some firstListed =>
        cases hlistedSecond : cycle.listedIn second place.1 with
        | none =>
          have hnone : cycle.listedIn first place.1 = none :=
            listedIn_none.mpr fun mailbox hmailbox =>
              listedIn_none.mp hlistedSecond mailbox ((hfirst.trans hsecond.symm).mem_iff.mp hmailbox)
          rw [hlistedFirst] at hnone
          cases hnone
        | some secondListed =>
          obtain ⟨one, hone, honeListed⟩ := listedIn_some hlistedFirst
          obtain ⟨two, htwo, htwoListed⟩ := listedIn_some hlistedSecond
          refine hagree before hbefore place.1 ?_ one (hfirst.mem_iff.mp hone) two (hsecond.mem_iff.mp htwo) _ _
            honeListed htwoListed place.2 ?_
          · rintro (hsettled | hgiven)
            · exact hdescribed hsettled
            · exact hkept ((givenUp_congr hsame).mp ((givenUp_congr hsameInitial).mpr hgiven))
          · exact fun htaken => huntaken ((takenByDeltas_congr hsame).mp ((takenByDeltas_congr hsameInitial).mpr htaken))

/-- A mailbox can be streamed last. -/
theorem order_ending {mailbox : PlannedImapMailbox} (hmem : mailbox ∈ cycle.initial) :
    ∃ others, (others ++ [mailbox]).Perm cycle.initial := by
  obtain ⟨earlier, later, hsplit⟩ := List.append_of_mem hmem
  refine ⟨earlier ++ later, ?_⟩
  rw [hsplit]
  exact (List.perm_append_singleton mailbox (earlier ++ later)).trans List.perm_middle.symm

theorem streamsAgree_of_orderIndependent (hindependent : cycle.OrderIndependent) : cycle.StreamsAgree := by
  intro before hbefore id hunsettled first hfirst second hsecond firstListed secondListed hfirstListed hsecondListed
    mailbox_id huntaken
  have hended : ∀ mailbox ∈ cycle.initial, ∀ listed, cycle.listedIn [mailbox] id = some listed →
      ∃ order, order.Perm cycle.initial ∧ ∃ after,
        (cycle.batchesIn order).foldlM ImapStore.apply_sync_batch cycle.store = .ok after ∧
          ((id, mailbox_id) ∈ after.base.memberships ↔ mailbox_id ∈ listed) := by
    intro mailbox hmailbox listed hlisted
    obtain ⟨others, hperm⟩ := order_ending hmailbox
    have hne : others ++ [mailbox] ≠ [] := List.append_ne_nil_of_right_ne_nil _ (List.cons_ne_nil _ _)
    obtain ⟨after, hrun⟩ := (@run_exists cycle (others ++ [mailbox])).2 hne
    obtain ⟨streamed, hstreamed, hmember⟩ := mem_memberships_batchesIn hperm hne hrun
    obtain ⟨middle, hstream, _, hsame⟩ := stored_same hperm hstreamed hbefore
    refine ⟨others ++ [mailbox], hperm, after, hrun, ?_⟩
    rw [(hmember (id, mailbox_id)).2 fun hdescribed => hunsettled (Or.inl hdescribed), givenUp_congr hsame,
      takenByDeltas_congr hsame, mem_memberships_streamed hstream, listedIn_append]
    simp only [hlisted, Option.some_or, Option.elim_some]
    exact and_iff_left ⟨fun hgiven => hunsettled (Or.inr hgiven), huntaken⟩
  obtain ⟨firstOrder, hfirstPerm, afterFirst, hfirstRun, hfirstMember⟩ := hended first hfirst firstListed hfirstListed
  obtain ⟨secondOrder, hsecondPerm, afterSecond, hsecondRun, hsecondMember⟩ := hended second hsecond secondListed hsecondListed
  rw [← hfirstMember, ← hsecondMember]
  exact hindependent firstOrder secondOrder hfirstPerm hsecondPerm afterFirst afterSecond hfirstRun hsecondRun _

end Agreement

/-- From a matched store, a run keeps locations and memberships matched exactly when each of
    its batches covers; the order of the streams does not show exactly when they agree. -/
theorem matched_and_ordered_iff (sources : List ImapBatchSource) {store : ImapStore} (hmatched : store.Matched)
    (cycle : StreamedCycle) :
    (MatchedAlong sources store ↔ CoveredAlong sources store) ∧ (cycle.OrderIndependent ↔ cycle.StreamsAgree) :=
  ⟨matchedAlong_iff sources hmatched, streamsAgree_of_orderIndependent, orderIndependent_of_streamsAgree⟩

section Labelled

def gmail : DiscoveredImapAccount where
  capabilities := {
    supports_enable := false, supports_condstore := true, supports_qresync := false, supports_gmail_extensions := true }
  mailboxes := [⟨"all", "[Gmail]/All Mail", none, true, ["\\All"]⟩, ⟨"inbox", "INBOX", some "inbox", true, []⟩]

/-- A message as a mailbox shows it. Its label list leaves out the mailbox itself, and All Mail has no label. -/
def shown (uid : ImapUid) : ImapFetchedHeader where
  uid := uid
  modseq := none
  keywords := BTreeSet.empty
  gmail_message_id := some 7
  gmail_labels := some []
  parsed := default

/-- All Mail has been streamed. -/
def allMailStreamed : ImapStore where
  base := { DatabaseStore.empty with
    message := (∅ : AList fun _ : MessageId => MessageRow).insert (gmail_message_id 7)
      (.of_record { (default : MessageRecord) with id := gmail_message_id 7, mailbox_ids := ["all"] })
    mailbox := [⟨"all", none⟩, ⟨"inbox", some "inbox"⟩] }
  location := ⟨[⟨gmail_message_id 7, "all", 1, 9, none⟩], List.nodup_singleton _⟩
  mailbox_state := ⟨[⟨"all", 1, some 9, some 6, none⟩], List.nodup_singleton _⟩

/-- The inbox is streamed next. -/
def inboxChunk : ImapBatchSource := .chunk gmail ⟨"inbox", 1, none, some 6⟩ [shown 3] ⟨"inbox", 1, some 3, some 6, none⟩

theorem allMailStreamed_matched : allMailStreamed.Matched := by
  intro location hlocation
  obtain rfl := List.mem_singleton.mp hlocation
  exact List.mem_singleton_self _

theorem inboxChunk_matched_iff : allMailStreamed.Matched ∧
    (MatchedAlong [inboxChunk] allMailStreamed ↔ CoveredAlong [inboxChunk] allMailStreamed) ∧
      (archived.OrderIndependent ↔ archived.StreamsAgree) :=
  ⟨allMailStreamed_matched, matched_and_ordered_iff [inboxChunk] allMailStreamed_matched archived⟩

/-- The record of the chunk leaves All Mail out. -/
theorem inboxChunk_uncovered : ¬inboxChunk.Covers allMailStreamed := by
  intro hcovers
  have hprojected : (project_imap_headers gmail ([shown 3].map (imap_header_message_record_with_gmail_metadata
      ⟨"inbox", 1, none, some 6⟩))).map (fun header => (header.message.id, header.message.mailbox_ids)) =
        [(gmail_message_id 7, ["inbox"])] := by decide +kernel
  have hlisted : (gmail_message_id 7, ["inbox"]) ∈ (project_imap_headers gmail ([shown 3].map
      (imap_header_message_record_with_gmail_metadata ⟨"inbox", 1, none, some 6⟩))).map
        (fun header => (header.message.id, header.message.mailbox_ids)) := by
    rw [hprojected]
    exact List.mem_singleton_self _
  obtain ⟨header, hheader, hrecord⟩ := List.mem_map.mp hlisted
  have hcovered := hcovers header hheader ⟨gmail_message_id 7, "all", 1, 9, none⟩ (List.mem_singleton_self _)
    (congrArg Prod.fst hrecord).symm
  rw [show header.message.mailbox_ids = ["inbox"] from congrArg Prod.snd hrecord] at hcovered
  exact absurd hcovered (by decide)

/-- Applied, it takes the membership in All Mail and leaves the location there. -/
theorem location_without_membership : ¬((∀ (sources : List ImapBatchSource) (store : ImapStore), store.Matched →
    MatchedAlong sources store) ∧ ∀ cycle : StreamedCycle, cycle.OrderIndependent) := by
  rintro ⟨hmatched, _⟩
  have hrun := hmatched [inboxChunk] allMailStreamed allMailStreamed_matched
  exact inboxChunk_uncovered ((matchedAlong_iff _ allMailStreamed_matched).mp hrun).1

end Labelled

end StreamedCycle

end posthaste.imap
