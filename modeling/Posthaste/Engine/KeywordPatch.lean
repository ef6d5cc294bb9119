import Mathlib.Data.Finset.Max
import Posthaste.DomainModel.Commands
import Posthaste.Library.JsonPatch
import Posthaste.ReplicaCore.Message

open serde json_patch posthaste.model posthaste.replica

namespace posthaste.engine

def keywordPath (keyword : String) : String := "keywords/" ++ keyword

/-- The patch of the keywords: every added one `true`, then every removed one `null`. -/
def keyword_patch (command : SetKeywordsCommand) : List (String × Value) :=
  insertAll (command.remove.map keywordPath) Value.null
    (insertAll (command.add.map keywordPath) (Value.bool true) [])

/-- The arguments of an `Email/set` that patches one message. -/
def emailSetArguments (account_id : String) (expected_state : Option String) (message_id : MessageId)
    (patch : List (String × Value)) : List (String × Value) :=
  let arguments := insert "accountId" (.string account_id) []
  let arguments := match expected_state with
    | some expected_state => insert "ifInState" (.string expected_state) arguments
    | none => arguments
  insert "update" (.object [(message_id, .object patch)]) arguments

def set_keywords_request_body (account_id : String) (expected_state : Option String) (message_id : MessageId)
    (command : SetKeywordsCommand) : Value :=
  .object [
    ("using", .array [.string "urn:ietf:params:jmap:core", .string "urn:ietf:params:jmap:mail"]),
    ("methodCalls", .array [.array [.string "Email/set",
      .object (emailSetArguments account_id expected_state message_id (keyword_patch command)), .string "s0"]])]

/-- The update that the request's first method call asks for on the message. -/
def requestedUpdate (body : Value) (message_id : MessageId) : Option (List (String × Value)) :=
  match body.get "methodCalls" with
  | some (.array (.array [_, arguments, _] :: _)) =>
    match (arguments.get "update").bind (·.get message_id) with
    | some (.object patch) => some patch
    | _ => none
  | _ => none

/-- A keyword set as JMAP holds it: an object with `true` at every keyword. -/
def presences (keywords : List String) : List (String × Value) := keywords.map fun keyword => (keyword, .bool true)

/-- The server's message object, with these keywords among its properties. -/
def emailObject (keywords : List String) (others : List (String × Value)) : Value :=
  .object (("keywords", .object (presences keywords)) :: others)

def present : String × Value → Option String
  | (keyword, .bool true) => some keyword
  | _ => none

/-- The keywords a message object holds. -/
def keywordsOf (email : Value) : List String :=
  match email.get "keywords" with
  | some (.object entries) => entries.filterMap present
  | _ => []

/-- On the server's set, the pushed update gives what the local fold gives. -/
def PatchMeetsFold (command : SetKeywordsCommand) (keywords : List String) : Prop :=
  ∀ account_id expected_state message_id others mailbox_ids, ∃ update after folded,
    requestedUpdate (set_keywords_request_body account_id expected_state message_id command) message_id = some update ∧
      apply (emailObject keywords others) update = some after ∧
      apply_message_assertion ⟨keywords, mailbox_ids⟩ (.SetKeywords command.add command.remove) = .Present folded ∧
      ∀ keyword, keyword ∈ keywordsOf after ↔ keyword ∈ folded.keywords

section Request

variable {command : SetKeywordsCommand} {message_id : MessageId} {query : String}

/-- The request asks for the patch and nothing else. -/
theorem requestedUpdate_set_keywords (account_id : String) (expected_state : Option String) :
    requestedUpdate (set_keywords_request_body account_id expected_state message_id command) message_id =
      some (keyword_patch command) := by
  have hupdate : (emailSetArguments account_id expected_state message_id (keyword_patch command)).lookup "update" =
      some (.object [(message_id, .object (keyword_patch command))]) := lookup_insert
  have hmessage : (Value.object [(message_id, .object (keyword_patch command))]).get message_id =
      some (.object (keyword_patch command)) := by
    rw [Value.get, List.lookup_cons, beq_self_eq_true]
  have hbody : requestedUpdate (set_keywords_request_body account_id expected_state message_id command) message_id =
      match ((emailSetArguments account_id expected_state message_id (keyword_patch command)).lookup "update").bind
        (·.get message_id) with
      | some (.object patch) => some patch
      | _ => none := rfl
  rw [hbody, hupdate, Option.bind_some, hmessage]

/-- What the command asks of a keyword: a removal wins over an addition. -/
def asked (command : SetKeywordsCommand) (keyword : String) : Option Bool :=
  if keyword ∈ command.remove then some false else if keyword ∈ command.add then some true else none

/-- What becomes of a name that is in the set or not, when the command asks this of the keyword. -/
def wanted (command : SetKeywordsCommand) (keyword : String) (held : Bool) : Bool := (asked command keyword).getD held

def presence (on : Bool) : Value := if on then .bool true else .null

/-- The command as a map of its keywords. -/
def wishes (command : SetKeywordsCommand) : List (String × Bool) :=
  insertAll command.remove false (insertAll command.add true [])

theorem lookup_wishes : (wishes command).lookup query = asked command query := by
  unfold wishes asked
  rw [lookup_insertAll, lookup_insertAll, List.lookup_nil]

theorem nodup_wishes : ((wishes command).map Prod.fst).Nodup :=
  nodup_insertAll (nodup_insertAll List.nodup_nil)

theorem keywordPath_injective : Function.Injective keywordPath := by
  intro first second hsame
  unfold keywordPath at hsame
  rw [← String.toList_inj, String.toList_append, String.toList_append, List.append_cancel_left_eq] at hsame
  exact String.toList_inj.mp hsame

theorem keyword_patch_eq : keyword_patch command =
    (wishes command).map fun wish => (keywordPath wish.1, presence wish.2) := by
  unfold keyword_patch wishes
  rw [← insertAll_map keywordPath_injective, ← insertAll_map keywordPath_injective]
  rfl

end Request

section Server

variable {keywords : List String} {others : List (String × Value)} {name query : String} {on : Bool}

/-- Put the name into the set, or take it out. -/
def setName (name : String) (on : Bool) (keywords : List String) : List String :=
  if on then (if name ∈ keywords then keywords else keywords ++ [name]) else keywords.filter (· ≠ name)

theorem mem_setName : query ∈ setName name on keywords ↔ if query = name then on = true else query ∈ keywords := by
  unfold setName
  cases on with
  | true =>
    by_cases hheld : name ∈ keywords
    · by_cases heq : query = name <;> simp [hheld, heq]
    · by_cases heq : query = name <;> simp [hheld, heq]
  | false => by_cases heq : query = name <;> simp [heq]

theorem setEntry_presences :
    setEntry name (presence on) (presences keywords) = presences (setName name on keywords) := by
  cases on with
  | true =>
    show json_patch.insert name (.bool true) (presences keywords) = presences (if name ∈ keywords then _ else _)
    induction keywords with
    | nil => rfl
    | cons keyword rest ih =>
      show json_patch.insert name (Value.bool true) ((keyword, Value.bool true) :: presences rest) = _
      rw [json_patch.insert]
      by_cases heq : keyword = name
      · simp [heq, presences]
      · rw [if_neg heq, ih]
        by_cases hrest : name ∈ rest
        · simp [hrest, presences]
        · simp [hrest, Ne.symm heq, presences]
  | false =>
    show (presences keywords).filter _ = presences (keywords.filter _)
    rw [presences, List.filter_map]
    rfl

theorem assign_keyword : assign (emailObject keywords others) ["keywords", name] (presence on) =
    some (emailObject (setName name on keywords) others) := by
  have hinner : assign (.object (presences keywords)) [name] (presence on) =
      some (.object (presences (setName name on keywords))) := by
    rw [assign, setEntry_presences]
  rw [emailObject, assign_below (List.lookup_cons_self), hinner]
  rfl

/-- A keyword is no object: nothing can be set inside it. -/
theorem assign_inside (inner : String) (rest : List String) (value : Value) :
    assign (emailObject keywords others) ("keywords" :: name :: inner :: rest) value = none := by
  have hinner : assign (.object (presences keywords)) (name :: inner :: rest) value = none := by
    cases hlookup : (presences keywords).lookup name with
    | none => exact assign_below_missing hlookup
    | some child =>
      have hflag : child = .bool true := by
        obtain ⟨before, after, heq, _⟩ := List.lookup_eq_some_iff.mp hlookup
        have hmem : (name, child) ∈ presences keywords := heq ▸ List.mem_append_right _ List.mem_cons_self
        obtain ⟨keyword, _, hentry⟩ := List.mem_map.mp hmem
        exact (Prod.mk.inj hentry).2.symm
      rw [assign_below hlookup, hflag]
      rfl
  rw [emailObject, assign_below (List.lookup_cons_self), hinner]
  rfl

theorem mem_keywordsOf : query ∈ keywordsOf (emailObject keywords others) ↔ query ∈ keywords := by
  have hentries : (presences keywords).filterMap present = keywords := by
    induction keywords with
    | nil => rfl
    | cons keyword rest ih => exact congrArg (keyword :: ·) ih
  have hget : (emailObject keywords others).get "keywords" = some (.object (presences keywords)) := rfl
  rw [keywordsOf, hget]
  show query ∈ (presences keywords).filterMap present ↔ _
  rw [hentries]

/-- Set names one after the other. -/
def setNames (marks : List (String × Bool)) (keywords : List String) : List String :=
  marks.foldl (fun keywords mark => setName mark.1 mark.2 keywords) keywords

theorem mem_setNames {marks : List (String × Bool)} (hnodup : (marks.map Prod.fst).Nodup) :
    query ∈ setNames marks keywords ↔ (marks.lookup query).getD (decide (query ∈ keywords)) = true := by
  unfold setNames
  induction marks generalizing keywords with
  | nil => simp
  | cons mark rest ih =>
    rw [List.map_cons, List.nodup_cons] at hnodup
    rw [List.foldl_cons, ih hnodup.2, List.lookup_cons]
    by_cases heq : query = mark.1
    · have hrest : rest.lookup query = none := by
        rw [List.lookup_eq_none_iff]
        intro entry hentry
        rw [bne_iff_ne]
        rintro hsame
        exact hnodup.1 (heq ▸ hsame ▸ List.mem_map_of_mem hentry)
      rw [hrest, heq, beq_self_eq_true, Option.getD_none, decide_eq_true_iff, mem_setName, if_pos rfl]
      rfl
    · have hkept : query ∈ setName mark.1 mark.2 keywords ↔ query ∈ keywords := by rw [mem_setName, if_neg heq]
      rw [beq_false_of_ne heq, decide_eq_decide.mpr hkept]

/-- Patches of single names set the names. -/
theorem foldlM_assign (marks : List (String × Bool)) :
    (marks.map fun mark => (["keywords", mark.1], presence mark.2)).foldlM
      (fun target entry => assign target entry.1 entry.2) (emailObject keywords others) =
        some (emailObject (setNames marks keywords) others) := by
  induction marks generalizing keywords with
  | nil => rfl
  | cons mark rest ih =>
    rw [List.map_cons, List.foldlM_cons, assign_keyword]
    exact ih

/-- Assigned patches all name a keyword itself, none anything inside one. -/
theorem single_of_foldlM {patches : List (List String × Value)} {after : Value}
    (hpatches : ∀ entry ∈ patches, ∃ name inner on, entry = ("keywords" :: name :: inner, presence on))
    (hassign : patches.foldlM (fun target entry => assign target entry.1 entry.2) (emailObject keywords others) =
      some after) : ∀ entry ∈ patches, ∃ name, entry.1 = ["keywords", name] := by
  induction patches generalizing keywords with
  | nil =>
    intro entry hentry
    cases hentry
  | cons entry rest ih =>
    obtain ⟨name, inner, on, hentry⟩ := hpatches entry List.mem_cons_self
    rw [List.foldlM_cons, hentry] at hassign
    cases inner with
    | nil =>
      rw [assign_keyword] at hassign
      intro other hother
      rcases List.mem_cons.mp hother with heq | hother
      · exact ⟨name, by rw [heq, hentry]⟩
      · exact ih (fun other hother => hpatches other (List.mem_cons_of_mem _ hother)) hassign other hother
    | cons inner more =>
      rw [assign_inside] at hassign
      cases hassign

end Server

section Agreement

variable {command : SetKeywordsCommand} {keywords : List String} {others : List (String × Value)} {after : Value}

theorem pointer_keywordPath (keyword : String) :
    pointer (keywordPath keyword) = (pointer keyword).map ("keywords" :: ·) := by
  have htokens : (keywordPath keyword).toList.splitOn '/' = "keywords".toList :: keyword.toList.splitOn '/' := by
    have hchars : (keywordPath keyword).toList = "keywords".toList ++ '/' :: keyword.toList :=
      String.toList_append
    rw [hchars, List.splitOn_append_cons_self, List.splitOn_eq_singleton (by decide), List.singleton_append]
  unfold pointer
  rw [htokens, List.mapM_cons]
  cases (keyword.toList.splitOn '/').mapM fun token => (unescape token).map String.ofList with
  | none => rfl
  | some names => rfl

theorem asked_isSome_iff {keyword : String} :
    (asked command keyword).isSome ↔ keyword ∈ command.add ++ command.remove := by
  unfold asked
  rw [List.mem_append]
  split_ifs with hremove hadd
  · simp [hremove]
  · simp [hadd]
  · simp [hremove, hadd]

theorem mem_wishes_keys {keyword : String} :
    keyword ∈ (wishes command).map Prod.fst ↔ keyword ∈ command.add ++ command.remove := by
  rw [← asked_isSome_iff, ← lookup_wishes, List.lookup_isSome_iff, List.mem_map]
  constructor
  · rintro ⟨wish, hwish, rfl⟩
    exact ⟨wish, hwish, beq_self_eq_true _⟩
  · rintro ⟨wish, hwish, hkey⟩
    exact ⟨wish, hwish, (eq_of_beq hkey).symm⟩

/-- The patch is applied only when every keyword is the spelling of a name. -/
theorem spelled_of_apply (happly : apply (emailObject keywords others) (keyword_patch command) = some after) :
    ∀ keyword ∈ command.add ++ command.remove, ∃ name, keyword = escapeName name := by
  obtain ⟨patches, hread, _, hassign⟩ := apply_eq_some_iff.mp happly
  rw [keyword_patch_eq] at hread
  obtain ⟨hforward, hback⟩ := exists_of_mapM hread
  have hshape : ∀ entry ∈ patches, ∃ name inner on, entry = ("keywords" :: name :: inner, presence on) := by
    intro entry hentry
    obtain ⟨item, hitem, hpointer⟩ := hback entry hentry
    obtain ⟨wish, _, rfl⟩ := List.mem_map.mp hitem
    obtain ⟨names, hnames, rfl⟩ := Option.map_eq_some_iff.mp hpointer
    rw [pointer_keywordPath] at hnames
    obtain ⟨inside, hinside, rfl⟩ := Option.map_eq_some_iff.mp hnames
    cases inside with
    | nil => exact absurd hinside (pointer_ne_nil _)
    | cons name inner => exact ⟨name, inner, wish.2, rfl⟩
  intro keyword hkeyword
  obtain ⟨wish, hwish, rfl⟩ := List.mem_map.mp (mem_wishes_keys.mpr hkeyword)
  obtain ⟨entry, hentry, hpointer⟩ := hforward _ (List.mem_map_of_mem hwish)
  obtain ⟨name, hname⟩ := single_of_foldlM hshape hassign entry hentry
  obtain ⟨names, hnames, rfl⟩ := Option.map_eq_some_iff.mp hpointer
  rw [pointer_keywordPath] at hnames
  obtain ⟨inside, hinside, rfl⟩ := Option.map_eq_some_iff.mp hnames
  obtain ⟨_, rfl⟩ := List.cons.inj hname
  exact ⟨name, pointer_eq_single_iff.mp hinside⟩

/-- Spelled right, the patch sets exactly the names its keywords spell. -/
theorem apply_of_spelled (hspelled : ∀ keyword ∈ command.add ++ command.remove, ∃ name, keyword = escapeName name) :
    ∃ marks : List (String × Bool), wishes command = marks.map (fun mark => (escapeName mark.1, mark.2)) ∧
      apply (emailObject keywords others) (keyword_patch command) = some (emailObject (setNames marks keywords) others) := by
  have hmarks : ∃ marks : List (String × Bool),
      wishes command = marks.map fun mark => (escapeName mark.1, mark.2) := by
    have hkeys : ∀ wish ∈ wishes command, ∃ name, wish.1 = escapeName name :=
      fun wish hwish => hspelled _ (mem_wishes_keys.mp (List.mem_map_of_mem hwish))
    generalize wishes command = entries at hkeys
    induction entries with
    | nil => exact ⟨[], rfl⟩
    | cons wish rest ih =>
      obtain ⟨name, hname⟩ := hkeys wish List.mem_cons_self
      obtain ⟨marks, hrest⟩ := ih fun other hother => hkeys other (List.mem_cons_of_mem _ hother)
      exact ⟨(name, wish.2) :: marks, by rw [hrest, List.map_cons, ← hname]⟩
  obtain ⟨marks, heq⟩ := hmarks
  refine ⟨marks, heq, apply_eq_some_iff.mpr ⟨_, ?_, ?_, foldlM_assign marks⟩⟩
  · rw [keyword_patch_eq, heq, List.map_map]
    apply mapM_eq_some_iff.mpr
    rw [List.forall₂_map_left_iff, List.forall₂_map_right_iff]
    apply List.forall₂_same.mpr
    intro mark _
    show (pointer (keywordPath (escapeName mark.1))).map _ = _
    rw [pointer_keywordPath, pointer_eq_single_iff.mpr rfl]
    rfl
  · have hnodup : (marks.map Prod.fst).Nodup := by
      have hkeys := @nodup_wishes command
      rw [heq, List.map_map] at hkeys
      exact List.Nodup.of_map escapeName (by rwa [List.map_map])
    rw [List.map_map]
    refine List.pairwise_map.mpr ((List.pairwise_map.mp hnodup).imp fun hne => ?_)
    rintro (hin | hin)
    · exact hne (List.cons.inj (List.cons.inj (hin.eq_of_length rfl)).2).1
    · exact hne (List.cons.inj (List.cons.inj (hin.eq_of_length rfl)).2).1.symm

/-- The local fold makes of every name what is wanted of it. -/
theorem mem_folded {keyword : String} :
    keyword ∈ applyDelta keywords command.add command.remove ↔
      wanted command keyword (decide (keyword ∈ keywords)) = true := by
  unfold wanted asked
  rw [mem_applyDelta]
  split_ifs with hremove hadd
  · simp [hremove]
  · simp [hremove, hadd]
  · simp [hremove, hadd]

/-- The server makes of every name what is wanted of its escaped spelling. -/
theorem mem_patched (hspelled : ∀ keyword ∈ command.add ++ command.remove, ∃ name, keyword = escapeName name) :
    ∃ after, apply (emailObject keywords others) (keyword_patch command) = some after ∧
      ∀ name, name ∈ keywordsOf after ↔ wanted command (escapeName name) (decide (name ∈ keywords)) = true := by
  obtain ⟨marks, hmarks, happly⟩ := @apply_of_spelled command keywords others hspelled
  refine ⟨_, happly, fun name => ?_⟩
  have hnodup : (marks.map Prod.fst).Nodup := by
    have hkeys := @nodup_wishes command
    rw [hmarks, List.map_map] at hkeys
    exact List.Nodup.of_map escapeName (by rwa [List.map_map])
  have hlookup : marks.lookup name = asked command (escapeName name) := by
    rw [← lookup_wishes, hmarks]
    exact (Option.map_id_apply.symm.trans (lookup_map escapeName_injective id).symm)
  rw [mem_keywordsOf, mem_setNames hnodup, hlookup]
  rfl

/-- Every keyword is the escaped spelling of a name, and of no name that an
    escape changes does the command want one thing under the name itself and
    another under its escaped spelling. -/
structure ReadAsMeant (command : SetKeywordsCommand) (keywords : List String) : Prop where
  spelled : ∀ keyword ∈ command.add ++ command.remove, ∃ name, keyword = escapeName name
  meant : ∀ name : String, ¬ Plain name.toList →
    wanted command (escapeName name) (decide (name ∈ keywords)) = wanted command name (decide (name ∈ keywords))

theorem patchMeetsFold_iff : PatchMeetsFold command keywords ↔ ReadAsMeant command keywords := by
  constructor
  · intro hmeets
    obtain ⟨update, after, folded, hupdate, happly, hfold, hsame⟩ := hmeets "" none "" [] []
    rw [requestedUpdate_set_keywords, Option.some.injEq] at hupdate
    obtain rfl := hupdate
    obtain rfl := Outcome.Present.inj hfold
    have hspelled := spelled_of_apply happly
    obtain ⟨patched, hpatched, hnames⟩ := @mem_patched command keywords [] hspelled
    rw [happly, Option.some.injEq] at hpatched
    obtain rfl := hpatched
    refine ⟨hspelled, fun name _ => ?_⟩
    rw [Bool.eq_iff_iff, ← hnames, hsame]
    exact mem_folded
  · intro hread account_id expected_state message_id others mailbox_ids
    obtain ⟨after, happly, hnames⟩ := @mem_patched command keywords others hread.spelled
    refine ⟨_, after, _, requestedUpdate_set_keywords account_id expected_state, happly, rfl, fun keyword => ?_⟩
    show _ ↔ keyword ∈ applyDelta keywords command.add command.remove
    rw [hnames, mem_folded]
    by_cases hplain : Plain keyword.toList
    · rw [escapeName_of_plain hplain]
    · rw [hread.meant keyword hplain]

/-- Of the keywords with a tilde, a longest one is not the escaped spelling of another. -/
theorem exists_unspelled {keywords : List String} {keyword : String} (hmem : keyword ∈ keywords)
    (htilde : '~' ∈ keyword.toList) : ∃ longest ∈ keywords, '~' ∈ longest.toList ∧ escapeName longest ∉ keywords := by
  obtain ⟨longest, hlongest, hmost⟩ := Finset.exists_max_image
    (keywords.toFinset.filter fun keyword => '~' ∈ keyword.toList) (fun keyword => keyword.toList.length)
    ⟨keyword, Finset.mem_filter.mpr ⟨List.mem_toFinset.mpr hmem, htilde⟩⟩
  rw [Finset.mem_filter, List.mem_toFinset] at hlongest
  refine ⟨longest, hlongest.1, hlongest.2, fun hspelling => ?_⟩
  obtain ⟨hlonger, hstill⟩ := lt_escape_of_tilde hlongest.2
  have hchars : (escapeName longest).toList = escape longest.toList := String.toList_ofList
  have hle := hmost (escapeName longest)
    (Finset.mem_filter.mpr ⟨List.mem_toFinset.mpr hspelling, by rw [hchars]; exact hstill⟩)
  rw [hchars] at hle
  omega

theorem asked_eq_none {keyword : String} (hkeyword : keyword ∉ command.add ++ command.remove) :
    asked command keyword = none := by
  rw [← Option.not_isSome_iff_eq_none, asked_isSome_iff]
  exact hkeyword

/-- A keyword with a tilde is read as another name, on some server set to another effect. -/
theorem exists_misread {keyword : String} (hkeyword : keyword ∈ command.add ++ command.remove)
    (htilde : '~' ∈ keyword.toList) : ∃ keywords, ¬ ReadAsMeant command keywords := by
  obtain ⟨longest, hlongest, hstill, hunspelled⟩ := exists_unspelled hkeyword htilde
  have hplain : ¬ Plain longest.toList := fun hplain => hplain.2 hstill
  obtain ⟨on, hasked⟩ := Option.isSome_iff_exists.mp (asked_isSome_iff.mpr hlongest)
  refine ⟨if on then [] else [longest], fun hread => ?_⟩
  have hsame := hread.meant longest hplain
  rw [wanted, wanted, asked_eq_none hunspelled, hasked] at hsame
  cases on <;> simp at hsame

end Agreement

/-- The pushed patch is the local fold on every server set exactly when no keyword of
    the command holds a slash or a tilde, and on one server set exactly when
    the patch rules read the keywords as they are meant. -/
theorem keyword_patch_is_the_fold (command : SetKeywordsCommand) :
    ((∀ keywords, PatchMeetsFold command keywords) ↔
      ∀ keyword ∈ command.add ++ command.remove, Plain keyword.toList) ∧
      ∀ keywords, PatchMeetsFold command keywords ↔ ReadAsMeant command keywords := by
  refine ⟨⟨?_, ?_⟩, fun keywords => patchMeetsFold_iff⟩
  · intro hmeets keyword hkeyword
    obtain ⟨name, hname⟩ := (patchMeetsFold_iff.mp (hmeets [])).spelled keyword hkeyword
    refine ⟨?_, fun htilde => ?_⟩
    · rw [hname, escapeName, String.toList_ofList]
      exact slash_not_mem_escape _
    · obtain ⟨keywords, hmisread⟩ := exists_misread hkeyword htilde
      exact hmisread (patchMeetsFold_iff.mp (hmeets keywords))
  · intro hplain keywords
    refine patchMeetsFold_iff.mpr ⟨fun keyword hkeyword => ?_, fun name hname => ?_⟩
    · exact ⟨keyword, (escapeName_of_plain (hplain keyword hkeyword)).symm⟩
    · have hspelling : ¬ Plain (escapeName name).toList := by
        rw [escapeName, String.toList_ofList]
        exact fun hescaped => hescaped.2 (tilde_mem_escape hname)
      rw [wanted, wanted, asked_eq_none fun hmem => hspelling (hplain _ hmem),
        asked_eq_none fun hmem => hname (hplain _ hmem)]

/-- A keyword with a slash in it is pushed as a path into another keyword: the update is rejected. -/
theorem slash_keyword_is_rejected : ¬ ∀ command keywords, PatchMeetsFold command keywords := by
  intro hmeets
  obtain ⟨name, hname⟩ := (patchMeetsFold_iff.mp (hmeets ⟨["work/urgent"], []⟩ [])).spelled "work/urgent"
    List.mem_cons_self
  have hslash : '/' ∈ (escapeName name).toList := by rw [← hname]; decide
  rw [escapeName, String.toList_ofList] at hslash
  exact slash_not_mem_escape _ hslash

end posthaste.engine
