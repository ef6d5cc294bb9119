import Posthaste.Library.Preorder
import Posthaste.Library.Table

namespace posthaste.client

/-- A message of the list, as far as the conversation view reads it. -/
structure MessageSummary where
  sourceId : String
  id : String
  conversationId : String
  receivedAt : String
  rfcMessageId : Option String
  inReplyTo : Option String
  deriving DecidableEq

structure ConversationTreeRow where
  message : MessageSummary
  depth : Nat
  conversationId : String
  hasChildren : Bool
  collapsed : Bool
  deriving DecidableEq

def messageKey (message : MessageSummary) : String := message.sourceId ++ ":" ++ message.id

/-- A `Map` by message key. -/
abbrev KeyMap (ν : Type) := Table (String × ν) Prod.fst

namespace KeyMap

variable {ν : Type}

def get (map : KeyMap ν) (key : String) : Option ν := (map.find key).map Prod.snd

def set (map : KeyMap ν) (key : String) (value : ν) : KeyMap ν := map.put (key, value)

/-- The bucket of a key gets one more item. -/
def push (map : KeyMap (List ν)) (key : String) (item : ν) : KeyMap (List ν) :=
  match map.get key with
  | some bucket => map.set key (bucket ++ [item])
  | none => map.set key [item]

end KeyMap

section Build

variable (localeCompare : String → String → Ordering)

def sortChronologically (messages : List MessageSummary) : List MessageSummary :=
  messages.mergeSort fun left right =>
    decide ((if left.receivedAt ≠ right.receivedAt then localeCompare left.receivedAt right.receivedAt
      else localeCompare left.id right.id) ≠ .gt)

def dedupeByKey (messages : List MessageSummary) : List MessageSummary :=
  (messages.foldl (fun (byKey : KeyMap MessageSummary) message => byKey.set (messageKey message) message)
    Table.empty).rows.map Prod.snd

/-- A header that is absent or empty names no message. -/
def truthy (header : Option String) : Option String := header.filter (· ≠ "")

def indexByKey (ordered : List MessageSummary) : KeyMap Nat :=
  ordered.zipIdx.foldl (fun map item => map.set (messageKey item.1) item.2) Table.empty

def messageByRfcId (ordered : List MessageSummary) : KeyMap MessageSummary :=
  ordered.foldl (fun map message => match truthy message.rfcMessageId with
    | some rfcMessageId => map.set rfcMessageId message
    | none => map) Table.empty

/-- The key of the message that the one at the index is hung under. -/
def parentKey (ordered : List MessageSummary) (root message : MessageSummary) (index : Nat) : String :=
  match (truthy message.inReplyTo).bind (messageByRfcId ordered).get with
  | none => messageKey root
  | some candidate =>
    if messageKey candidate ≠ messageKey message ∧
        ((indexByKey ordered).get (messageKey candidate)).any (· < index) then messageKey candidate
    else messageKey root

def childrenOf (ordered : List MessageSummary) (root : MessageSummary) (rest : List MessageSummary) :
    KeyMap (List MessageSummary) :=
  (rest.zipIdx 1).foldl (fun children item => children.push (parentKey ordered root item.1 item.2) item.1) Table.empty

def visit (children : KeyMap (List MessageSummary)) (collapsed : String → Bool) (conversationId : String) :
    Nat → MessageSummary → Nat → List ConversationTreeRow
  | 0, _, _ => []
  | fuel + 1, message, depth =>
    let key := messageKey message
    let kids := (children.get key).getD []
    let isCollapsed := collapsed key
    { message, depth, conversationId, hasChildren := !kids.isEmpty, collapsed := isCollapsed } ::
      if isCollapsed then [] else kids.flatMap fun child => visit children collapsed conversationId fuel child (depth + 1)

/-- No message hangs under more others than there are. -/
def buildConversationBlock (messages : List MessageSummary) (collapsed : String → Bool) : List ConversationTreeRow :=
  let ordered := sortChronologically localeCompare (dedupeByKey messages)
  match ordered with
  | [] => []
  | root :: rest => visit (childrenOf ordered root rest) collapsed root.conversationId ordered.length root 0

/-- The loop over the anchors: the conversations that were seen, and the rows. -/
def buildConversationTree (anchors : List MessageSummary) (messagesByConversation : KeyMap (List MessageSummary))
    (collapsed : String → Bool) : List ConversationTreeRow :=
  let anchorsByConversation : KeyMap (List MessageSummary) :=
    anchors.foldl (fun map anchor => map.push anchor.conversationId anchor) Table.empty
  (anchors.foldl (fun (state : List String × List ConversationTreeRow) anchor =>
    let conversationId := anchor.conversationId
    if conversationId ∈ state.1 then state
    else
      let source := match messagesByConversation.get conversationId with
        | some (message :: messages) => message :: messages
        | _ => (anchorsByConversation.get conversationId).getD []
      (conversationId :: state.1, state.2 ++ buildConversationBlock localeCompare source collapsed)) ([], [])).2

end Build

section Maps

variable {ν : Type}

namespace KeyMap

theorem get_set_self (map : KeyMap ν) (key : String) (value : ν) : (map.set key value).get key = some value := by
  unfold get set
  rw [show (map.put (key, value)).find key = some (key, value) from Table.find_put_self map (key, value)]
  rfl

theorem get_set_ne {map : KeyMap ν} {key other : String} {value : ν} (hother : other ≠ key) :
    (map.set key value).get other = map.get other := by
  unfold get set
  rw [Table.find_put_ne hother]

theorem get_push_self (map : KeyMap (List ν)) (key : String) (item : ν) :
    ((map.push key item).get key).getD [] = (map.get key).getD [] ++ [item] := by
  unfold push
  cases hget : map.get key with
  | none => rw [get_set_self]; rfl
  | some bucket => rw [get_set_self]; rfl

theorem get_push_ne {map : KeyMap (List ν)} {key other : String} {item : ν} (hother : other ≠ key) :
    (map.push key item).get other = map.get other := by
  unfold push
  cases map.get key with
  | none => exact get_set_ne hother
  | some bucket => exact get_set_ne hother

/-- What is pushed ends up in the bucket of its key, in order. -/
theorem get_foldl_push {α : Type} (items : List α) (keyOf : α → String) (value : α → ν) (map : KeyMap (List ν)) (key : String) :
    ((items.foldl (fun map item => map.push (keyOf item) (value item)) map).get key).getD [] =
      (map.get key).getD [] ++ (items.filter fun item => keyOf item = key).map value := by
  induction items generalizing map with
  | nil => rw [List.foldl_nil, List.filter_nil, List.map_nil, List.append_nil]
  | cons item items ih =>
    rw [List.foldl_cons, ih]
    by_cases hkey : keyOf item = key
    · subst hkey
      rw [get_push_self, List.filter_cons, if_pos (decide_eq_true rfl), List.map_cons, List.append_assoc]
      rfl
    · rw [get_push_ne (Ne.symm hkey), List.filter_cons_of_neg (by simpa using hkey)]

/-- What was set last is found, where no key is set twice. -/
theorem get_foldl_set {α : Type} {items : List α} {keyOf : α → String} {value : α → ν} {map : KeyMap ν}
    (hnodup : (items.map keyOf).Nodup) {item : α} (hitem : item ∈ items) :
    (items.foldl (fun map item => map.set (keyOf item) (value item)) map).get (keyOf item) = some (value item) := by
  have hkept : ∀ (others : List α) (map : KeyMap ν), keyOf item ∉ others.map keyOf →
      (others.foldl (fun map item => map.set (keyOf item) (value item)) map).get (keyOf item) = map.get (keyOf item) := by
    intro others
    induction others with
    | nil => exact fun _ _ => rfl
    | cons other others ih =>
      intro map hmissing
      rw [List.map_cons, List.mem_cons, not_or] at hmissing
      rw [List.foldl_cons, ih _ hmissing.2, get_set_ne hmissing.1]
  induction items generalizing map with
  | nil => exact absurd hitem List.not_mem_nil
  | cons first items ih =>
    rw [List.map_cons, List.nodup_cons] at hnodup
    rw [List.foldl_cons]
    obtain rfl | hitem := List.mem_cons.mp hitem
    · rw [hkept items _ hnodup.1, get_set_self]
    · exact ih hnodup.2 hitem

end KeyMap

end Maps

section Dedupe

variable {messages : List MessageSummary}

theorem dedupe_fold (messages : List MessageSummary) (map : KeyMap MessageSummary)
    (hmap : ∀ row ∈ map.rows, row.1 = messageKey row.2) :
    ∀ row ∈ (messages.foldl (fun (byKey : KeyMap MessageSummary) message => byKey.set (messageKey message) message) map).rows,
      row.1 = messageKey row.2 := by
  induction messages generalizing map with
  | nil => exact hmap
  | cons message messages ih =>
    apply ih
    intro row hrow
    obtain rfl | ⟨hrow, _⟩ := Table.mem_put.mp hrow
    · rfl
    · exact hmap row hrow

theorem keys_dedupe_nodup (messages : List MessageSummary) : ((dedupeByKey messages).map messageKey).Nodup := by
  unfold dedupeByKey
  rw [List.map_map]
  have hkeys := dedupe_fold messages Table.empty fun row hrow => absurd hrow List.not_mem_nil
  have hfst := List.map_congr_left fun row hrow => (hkeys row hrow).symm
  exact hfst ▸ Table.keys_nodup _

theorem mem_keys_fold {key : String} (messages : List MessageSummary) (map : KeyMap MessageSummary) :
    key ∈ (messages.foldl (fun (byKey : KeyMap MessageSummary) message => byKey.set (messageKey message) message) map).rows.map
      Prod.fst ↔ key ∈ messages.map messageKey ∨ key ∈ map.rows.map Prod.fst := by
  induction messages generalizing map with
  | nil => simp
  | cons message messages ih =>
    have hset : key ∈ (map.set (messageKey message) message).rows.map Prod.fst ↔
        key = messageKey message ∨ key ∈ map.rows.map Prod.fst := by
      simp only [KeyMap.set, List.mem_map, Table.mem_put]
      constructor
      · rintro ⟨row, rfl | ⟨hrow, _⟩, rfl⟩
        · exact Or.inl rfl
        · exact Or.inr ⟨row, hrow, rfl⟩
      · rintro (rfl | ⟨row, hrow, rfl⟩)
        · exact ⟨_, Or.inl rfl, rfl⟩
        · by_cases hkey : row.1 = messageKey message
          · exact ⟨_, Or.inl rfl, hkey.symm⟩
          · exact ⟨row, Or.inr ⟨hrow, hkey⟩, rfl⟩
    rw [List.foldl_cons, ih, hset, List.map_cons, List.mem_cons]
    constructor
    · rintro (hrest | rfl | hmap)
      · exact Or.inl (Or.inr hrest)
      · exact Or.inl (Or.inl rfl)
      · exact Or.inr hmap
    · rintro ((rfl | hrest) | hmap)
      · exact Or.inr (Or.inl rfl)
      · exact Or.inl hrest
      · exact Or.inr (Or.inr hmap)

/-- Leaving out duplicates leaves every key in. -/
theorem mem_keys_dedupe {key : String} : key ∈ (dedupeByKey messages).map messageKey ↔ key ∈ messages.map messageKey := by
  have hkeys := dedupe_fold messages Table.empty fun row hrow => absurd hrow List.not_mem_nil
  have hfst := List.map_congr_left fun row hrow => (hkeys row hrow).symm
  unfold dedupeByKey
  rw [List.map_map, show (messageKey ∘ Prod.snd : String × MessageSummary → String) = fun row => messageKey row.2 from rfl,
    hfst]
  refine (mem_keys_fold messages Table.empty).trans (or_iff_left List.not_mem_nil)

end Dedupe

section Order

variable {localeCompare : String → String → Ordering} {messages ordered : List MessageSummary}

variable (localeCompare) in
theorem sort_perm (messages : List MessageSummary) : (sortChronologically localeCompare messages).Perm messages :=
  List.mergeSort_perm messages _

variable (localeCompare) in
theorem keys_nodup (messages : List MessageSummary) :
    ((sortChronologically localeCompare (dedupeByKey messages)).map messageKey).Nodup :=
  ((sort_perm localeCompare _).map messageKey).nodup_iff.mpr (keys_dedupe_nodup messages)

/-- The message that the one at the index is hung under. -/
def replyParent (ordered : List MessageSummary) (root message : MessageSummary) (index : Nat) : MessageSummary :=
  match (truthy message.inReplyTo).bind (messageByRfcId ordered).get with
  | none => root
  | some candidate =>
    if messageKey candidate ≠ messageKey message ∧
        ((indexByKey ordered).get (messageKey candidate)).any (· < index) then candidate
    else root

theorem parentKey_eq (root message : MessageSummary) (index : Nat) :
    parentKey ordered root message index = messageKey (replyParent ordered root message index) := by
  unfold parentKey replyParent
  cases (truthy message.inReplyTo).bind (messageByRfcId ordered).get with
  | none => rfl
  | some candidate => exact (apply_ite messageKey _ _ _).symm

theorem mem_of_messageByRfcId {rfcMessageId : String} {message : MessageSummary}
    (hget : (messageByRfcId ordered).get rfcMessageId = some message) : message ∈ ordered := by
  have hfold : ∀ (messages : List MessageSummary) (map : KeyMap MessageSummary) (known : List MessageSummary),
      (∀ row ∈ map.rows, row.2 ∈ known) →
        ∀ row ∈ (messages.foldl (fun (map : KeyMap MessageSummary) message => match truthy message.rfcMessageId with
          | some rfcMessageId => map.set rfcMessageId message
          | none => map) map).rows, row.2 ∈ messages ∨ row.2 ∈ known := by
    intro messages
    induction messages with
    | nil => exact fun map known hknown row hrow => Or.inr (hknown row hrow)
    | cons first messages ih =>
      intro map known hknown row hrow
      rw [List.foldl_cons] at hrow
      have hnext : ∀ row ∈ (match truthy first.rfcMessageId with
          | some rfcMessageId => map.set rfcMessageId first
          | none => map : KeyMap MessageSummary).rows, row.2 ∈ first :: known := by
        intro row hrow
        cases hheader : truthy first.rfcMessageId with
        | none =>
          rw [hheader] at hrow
          exact List.mem_cons_of_mem _ (hknown row hrow)
        | some rfcMessageId =>
          rw [hheader] at hrow
          obtain rfl | ⟨hrow, _⟩ := Table.mem_put.mp hrow
          · exact List.mem_cons_self
          · exact List.mem_cons_of_mem _ (hknown row hrow)
      obtain hrest | hknown := ih _ _ hnext row hrow
      · exact Or.inl (List.mem_cons_of_mem _ hrest)
      · obtain hfirst | hknown := List.mem_cons.mp hknown
        · exact Or.inl (hfirst ▸ List.mem_cons_self)
        · exact Or.inr hknown
  unfold KeyMap.get at hget
  obtain ⟨row, hrow, rfl⟩ := Option.map_eq_some_iff.mp hget
  obtain hmem | hnone := hfold ordered Table.empty [] (fun row hrow => absurd hrow List.not_mem_nil) row
    (Table.mem_of_find hrow)
  · exact hmem
  · exact absurd hnone List.not_mem_nil

theorem get_indexByKey (hkeys : (ordered.map messageKey).Nodup) {index : Nat} {message : MessageSummary}
    (hmessage : (message, index) ∈ ordered.zipIdx) : (indexByKey ordered).get (messageKey message) = some index := by
  have hnodup : (ordered.zipIdx.map fun item => messageKey item.1).Nodup := by
    have hsame := congrArg (List.map messageKey) (List.zipIdx_map_fst 0 ordered)
    rw [List.map_map] at hsame
    exact hsame ▸ hkeys
  exact KeyMap.get_foldl_set hnodup hmessage

theorem idxOf_of_mem_zipIdx (hnodup : ordered.Nodup) {index : Nat} {message : MessageSummary}
    (hmessage : (message, index) ∈ ordered.zipIdx) : index = ordered.idxOf message := by
  obtain ⟨hlength, rfl⟩ := List.getElem?_eq_some_iff.mp (List.mk_mem_zipIdx_iff_getElem?.mp hmessage)
  exact (hnodup.idxOf_getElem index hlength).symm

theorem mem_zipIdx_idxOf {message : MessageSummary} (hmessage : message ∈ ordered) :
    (message, ordered.idxOf message) ∈ ordered.zipIdx :=
  List.mk_mem_zipIdx_iff_getElem?.mpr (List.getElem?_idxOf hmessage)

/-- A message hangs under one before it in the thread. -/
theorem replyParent_earlier {root key : MessageSummary} {before after : List MessageSummary}
    (hkeys : ((root :: before ++ key :: after).map messageKey).Nodup) :
    replyParent (root :: before ++ key :: after) root key ((root :: before ++ key :: after).idxOf key) ∈ root :: before := by
  unfold replyParent
  cases hcandidate : (truthy key.inReplyTo).bind (messageByRfcId (root :: before ++ key :: after)).get with
  | none => exact List.mem_cons_self
  | some candidate =>
    simp only
    split_ifs with hearlier
    · obtain ⟨header, _, hget⟩ := Option.bind_eq_some_iff.mp hcandidate
      have hmem := mem_of_messageByRfcId hget
      obtain ⟨_, hindex⟩ := hearlier
      rw [get_indexByKey hkeys (mem_zipIdx_idxOf hmem), Option.any_some, decide_eq_true_iff] at hindex
      have hstart : root :: before <+: root :: before ++ key :: after := List.prefix_append _ _
      have hnext : root :: before ++ [key] <+: root :: before ++ key :: after := ⟨after, by simp⟩
      have hkey := (hnext.mem_iff_idxOf_lt_length key).mp (List.mem_append_right _ (List.mem_singleton_self key))
      rw [List.length_append, List.length_singleton] at hkey
      exact (hstart.mem_iff_idxOf_lt_length candidate).mpr (by omega)
    · exact List.mem_cons_self

/-- A conversation as its replies hang. -/
def thread (root : MessageSummary) (rest : List MessageSummary) (hkeys : ((root :: rest).map messageKey).Nodup) :
    Hanging MessageSummary where
  root := root
  rest := rest
  parent message := replyParent (root :: rest) root message ((root :: rest).idxOf message)
  nodup := hkeys.of_map
  earlier before key after hsplit := by
    subst hsplit
    exact replyParent_earlier hkeys

variable {root : MessageSummary} {rest : List MessageSummary} {hkeys : ((root :: rest).map messageKey).Nodup}

theorem eq_of_key {first second : MessageSummary} (hkeys : (ordered.map messageKey).Nodup) (hfirst : first ∈ ordered)
    (hsecond : second ∈ ordered) (hkey : messageKey first = messageKey second) : first = second :=
  List.inj_on_of_nodup_map hkeys hfirst hsecond hkey

variable (hkeys) in
/-- The bucket of a message holds what hangs under it. -/
theorem get_childrenOf {message : MessageSummary} (hmessage : message ∈ root :: rest) :
    ((childrenOf (root :: rest) root rest).get (messageKey message)).getD [] = (thread root rest hkeys).children message := by
  unfold childrenOf
  rw [KeyMap.get_foldl_push (rest.zipIdx 1) (fun item => parentKey (root :: rest) root item.1 item.2) Prod.fst]
  have hitems : ∀ item ∈ rest.zipIdx 1, decide (parentKey (root :: rest) root item.1 item.2 = messageKey message) =
      decide ((thread root rest hkeys).parent item.1 = message) := by
    rintro ⟨child, index⟩ hitem
    have hindex : (child, index) ∈ (root :: rest).zipIdx := by
      rw [List.zipIdx_cons]
      exact List.mem_cons_of_mem _ hitem
    have hchild : child ∈ rest := by
      have hmap := List.mem_map_of_mem (f := Prod.fst) hitem
      rwa [List.zipIdx_map_fst] at hmap
    obtain rfl := idxOf_of_mem_zipIdx hkeys.of_map hindex
    rw [parentKey_eq, decide_eq_decide]
    constructor
    · exact fun hkey => eq_of_key hkeys ((thread root rest hkeys).parent_mem hchild) hmessage hkey
    · exact fun hparent => congrArg messageKey hparent
  rw [List.filter_congr hitems]
  unfold Hanging.children
  conv_rhs => rw [show (thread root rest hkeys).rest = (rest.zipIdx 1).map Prod.fst from (List.zipIdx_map_fst 1 rest).symm]
  rw [List.filter_map]
  rfl

/-- The row of a message below so many others. -/
def rowOf (tree : Hanging MessageSummary) (collapsed : String → Bool) (conversationId : String)
    (row : MessageSummary × List MessageSummary) : ConversationTreeRow where
  message := row.1
  depth := row.2.length
  conversationId := conversationId
  hasChildren := !(tree.children row.1).isEmpty
  collapsed := collapsed (messageKey row.1)

abbrev shownBelow (collapsed : String → Bool) (message : MessageSummary) : Bool := !collapsed (messageKey message)

/-- The rows are a walk through the thread. -/
theorem visit_eq_walk (hkeys : ((root :: rest).map messageKey).Nodup) (collapsed : String → Bool) (conversationId : String)
    (fuel : Nat) (above : List MessageSummary) {message : MessageSummary} (hmessage : message ∈ root :: rest) :
    visit (childrenOf (root :: rest) root rest) collapsed conversationId fuel message above.length =
      ((thread root rest hkeys).walk (shownBelow collapsed) fuel above message).map
        (rowOf (thread root rest hkeys) collapsed conversationId) := by
  induction fuel generalizing above message with
  | zero => rfl
  | succ fuel ih =>
    unfold visit
    simp only
    rw [get_childrenOf hkeys hmessage, Hanging.walk, List.map_cons]
    congr 1
    unfold shownBelow
    cases collapsed (messageKey message) with
    | true => rfl
    | false =>
      simp only [Bool.not_false, if_true, Bool.false_eq_true, if_false]
      rw [List.map_flatMap]
      refine List.flatMap_congr fun child hchild => ?_
      exact ih (message :: above) (List.mem_cons_of_mem _ (Hanging.mem_children.mp hchild).1)

/-- The last row of those shown so far that lies less deep. -/
def enclosingRow (rows : List ConversationTreeRow) (depth : Nat) : Option ConversationTreeRow :=
  rows.reverse.find? fun row => decide (row.depth < depth)

/-- What the rows show of a thread. -/
structure Threaded (tree : Hanging MessageSummary) (collapsed : String → Bool) (rows : List ConversationTreeRow) : Prop where
  /-- A message is shown as long as none that it hangs below is collapsed. -/
  shown : ∀ message, (∃ row ∈ rows, row.message = message) ↔
    ∃ above, tree.Above message above ∧ ∀ ancestor ∈ above, collapsed (messageKey ancestor) = false
  once : (rows.map ConversationTreeRow.message).Nodup
  /-- The row that a row is indented under is that of the message it replies to. -/
  indented : ∀ before row after, rows = before ++ row :: after → before = [] ∧ row.message = tree.root ∧ row.depth = 0 ∨
    ∃ parent, enclosingRow before row.depth = some parent ∧ parent.message = tree.parent row.message ∧
      row.depth = parent.depth + 1
  /-- Replies to one message keep their order. -/
  ordered : ∀ first second, List.Sublist [first, second] rows → 0 < first.depth → 0 < second.depth →
    tree.parent first.message = tree.parent second.message → List.Sublist [first.message, second.message] tree.rest
  replies : ∀ row ∈ rows, row.hasChildren = true ↔ ∃ reply ∈ tree.rest, tree.parent reply = row.message
  folded : ∀ row ∈ rows, row.collapsed = collapsed (messageKey row.message)

theorem enclosingRow_map (tree : Hanging MessageSummary) (collapsed : String → Bool) (conversationId : String)
    (rows : List (MessageSummary × List MessageSummary)) (depth : Nat) :
    enclosingRow (rows.map (rowOf tree collapsed conversationId)) depth =
      (Hanging.enclosing rows depth).map (rowOf tree collapsed conversationId) := by
  unfold enclosingRow Hanging.enclosing
  rw [← List.map_reverse, List.find?_map]
  rfl

theorem threaded_walk (tree : Hanging MessageSummary) (collapsed : String → Bool) (conversationId : String) {fuel : Nat}
    (hfuel : tree.rest.length < fuel) : Threaded tree collapsed
      ((tree.walk (shownBelow collapsed) fuel [] tree.root).map (rowOf tree collapsed conversationId)) where
  shown message := by
    constructor
    · rintro ⟨_, hrow, rfl⟩
      obtain ⟨⟨message, above⟩, hmem, rfl⟩ := List.mem_map.mp hrow
      obtain ⟨habove, hopen⟩ := (Hanging.mem_walk_iff hfuel).mp hmem
      exact ⟨above, habove, fun ancestor hancestor => by simpa using List.all_eq_true.mp hopen ancestor hancestor⟩
    · rintro ⟨above, habove, hopen⟩
      have hmem : (message, above) ∈ tree.walk (shownBelow collapsed) fuel [] tree.root := (Hanging.mem_walk_iff hfuel).mpr
        ⟨habove, List.all_eq_true.mpr fun ancestor hancestor => by simp [shownBelow, hopen ancestor hancestor]⟩
      exact ⟨_, List.mem_map_of_mem hmem, rfl⟩
  once := by
    rw [List.map_map]
    exact Hanging.keys_walk_nodup hfuel
  indented before row after hcut := by
    obtain ⟨before, rest, hwalk, rfl, hrest⟩ := List.map_eq_append_iff.mp hcut
    obtain ⟨shown, after, rfl, rfl, rfl⟩ := List.map_eq_cons_iff.mp hrest
    obtain ⟨rfl, rfl⟩ | ⟨parent, ancestors, hshown, hfound⟩ := Hanging.enclosing_walk hwalk
    · exact Or.inl ⟨rfl, rfl, rfl⟩
    · right
      refine ⟨rowOf tree collapsed conversationId (parent, ancestors), ?_, ?_, ?_⟩
      · rw [enclosingRow_map]
        show (Hanging.enclosing before shown.2.length).map _ = _
        rw [hfound, Option.map_some]
      · have hmem : shown ∈ tree.walk (shownBelow collapsed) fuel [] tree.root := by
          rw [hwalk]
          exact List.mem_append_right _ List.mem_cons_self
        have habove := Hanging.above_of_mem_walk Hanging.Above.root hmem
        rw [hshown] at habove
        exact habove.of_cons.1.symm
      · show shown.2.length = ancestors.length + 1
        rw [hshown, List.length_cons]
  ordered first second hsublist hfirst hsecond hparent := by
    obtain ⟨pair, hpair, hpairs⟩ := List.sublist_map_iff.mp hsublist
    obtain ⟨one, others, rfl, rfl, hothers⟩ := List.map_eq_cons_iff.mp hpairs.symm
    obtain ⟨two, none, rfl, rfl, hnone⟩ := List.map_eq_cons_iff.mp hothers
    obtain rfl := List.map_eq_nil_iff.mp hnone
    have hone := Hanging.above_of_mem_walk Hanging.Above.root (hpair.subset List.mem_cons_self)
    have htwo := Hanging.above_of_mem_walk Hanging.Above.root (hpair.subset (List.mem_cons_of_mem _ List.mem_cons_self))
    have hsame : one.2 = two.2 := by
      obtain ⟨one, _ | ⟨parent, ancestors⟩⟩ := one
      · exact absurd hfirst (Nat.lt_irrefl 0)
      obtain ⟨two, _ | ⟨other, others⟩⟩ := two
      · exact absurd hsecond (Nat.lt_irrefl 0)
      obtain ⟨hfirst_parent, hone⟩ := hone.of_cons
      obtain ⟨hsecond_parent, htwo⟩ := htwo.of_cons
      have hparents : parent = other := hfirst_parent.symm.trans (Eq.trans hparent hsecond_parent)
      rw [← hparents] at htwo ⊢
      simp only [hone.unique htwo]
    exact List.pairwise_iff_forall_sublist.mp Hanging.pairwise_walk hpair hsame
  replies row hrow := by
    obtain ⟨shown, _, rfl⟩ := List.mem_map.mp hrow
    show (!(tree.children shown.1).isEmpty) = true ↔ _
    rw [Bool.not_eq_true', List.isEmpty_eq_false_iff_exists_mem]
    simp only [Hanging.mem_children]
    rfl
  folded row hrow := by
    obtain ⟨shown, _, rfl⟩ := List.mem_map.mp hrow
    rfl

end Order

section Conversations

variable (localeCompare : String → String → Ordering)

/-- The messages of a conversation hang as a thread, in chronological order, duplicates left out. -/
def Thread (messages : List MessageSummary) (tree : Hanging MessageSummary) : Prop :=
  ∃ hkeys, tree = thread tree.root tree.rest hkeys ∧
    tree.root :: tree.rest = sortChronologically localeCompare (dedupeByKey messages)

/-- The rows of a conversation show its thread. -/
theorem buildConversationBlock_threaded {messages : List MessageSummary} (hmessages : messages ≠ []) (collapsed : String → Bool) :
    ∃ tree, Thread localeCompare messages tree ∧
      Threaded tree collapsed (buildConversationBlock localeCompare messages collapsed) := by
  have hkeys := keys_nodup localeCompare messages
  unfold buildConversationBlock
  cases hordered : sortChronologically localeCompare (dedupeByKey messages) with
  | nil =>
    obtain ⟨message, rest, rfl⟩ := List.exists_cons_of_ne_nil hmessages
    have hmem : messageKey message ∈ (dedupeByKey (message :: rest)).map messageKey :=
      mem_keys_dedupe.mpr (List.mem_map_of_mem List.mem_cons_self)
    have hperm := (sort_perm localeCompare (dedupeByKey (message :: rest))).map messageKey
    rw [hordered] at hperm
    exact absurd (hperm.mem_iff.mpr hmem) List.not_mem_nil
  | cons root rest =>
    rw [hordered] at hkeys
    refine ⟨thread root rest hkeys, ⟨hkeys, rfl, hordered.symm⟩, ?_⟩
    have hwalk := visit_eq_walk hkeys collapsed root.conversationId (root :: rest).length []
      (List.mem_cons_self : root ∈ root :: rest)
    rw [List.length_nil] at hwalk
    simp only
    rw [hwalk]
    exact threaded_walk _ _ _ (Nat.lt_succ_self rest.length)

/-- The conversations of a list, in the order of their first messages. -/
def conversationsOf : List MessageSummary → List String
  | [] => []
  | anchor :: anchors => anchor.conversationId :: (conversationsOf anchors).filter (· ≠ anchor.conversationId)

/-- The messages a conversation is shown from: all of them once they are fetched, those of the list before. -/
def sourceOf (anchors : List MessageSummary) (messagesByConversation : KeyMap (List MessageSummary))
    (conversationId : String) : List MessageSummary :=
  match messagesByConversation.get conversationId with
  | some (message :: messages) => message :: messages
  | _ => anchors.filter (·.conversationId = conversationId)

theorem mem_conversationsOf {anchors : List MessageSummary} {conversationId : String}
    (hmem : conversationId ∈ conversationsOf anchors) : ∃ anchor ∈ anchors, anchor.conversationId = conversationId := by
  induction anchors with
  | nil => exact absurd hmem List.not_mem_nil
  | cons anchor anchors ih =>
    obtain rfl | hmem := List.mem_cons.mp hmem
    · exact ⟨anchor, List.mem_cons_self, rfl⟩
    · obtain ⟨other, hother, hid⟩ := ih (List.mem_filter.mp hmem).1
      exact ⟨other, List.mem_cons_of_mem _ hother, hid⟩

theorem sourceOf_ne_nil {anchors : List MessageSummary} (messagesByConversation : KeyMap (List MessageSummary))
    {conversationId : String} (hmem : conversationId ∈ conversationsOf anchors) :
    sourceOf anchors messagesByConversation conversationId ≠ [] := by
  obtain ⟨anchor, hanchor, hid⟩ := mem_conversationsOf hmem
  unfold sourceOf
  split
  · exact List.cons_ne_nil _ _
  · exact List.ne_nil_of_mem (List.mem_filter.mpr ⟨hanchor, decide_eq_true hid⟩)

/-- The loop over the anchors shows every conversation once, where it first appears. -/
theorem tree_loop (block : String → List ConversationTreeRow) (anchors : List MessageSummary) (seen : List String)
    (rows : List ConversationTreeRow) :
    (anchors.foldl (fun (state : List String × List ConversationTreeRow) anchor =>
      if anchor.conversationId ∈ state.1 then state
      else (anchor.conversationId :: state.1, state.2 ++ block anchor.conversationId)) (seen, rows)).2 =
      rows ++ ((conversationsOf anchors).filter (· ∉ seen)).flatMap block := by
  induction anchors generalizing seen rows with
  | nil => exact (List.append_nil rows).symm
  | cons anchor anchors ih =>
    rw [List.foldl_cons, conversationsOf]
    by_cases hseen : anchor.conversationId ∈ seen
    · rw [if_pos hseen, ih, List.filter_cons_of_neg (by simpa using hseen), List.filter_filter]
      congr 2
      refine List.filter_congr fun id _ => ?_
      by_cases hid : id = anchor.conversationId
      · simp [hid, hseen]
      · simp [hid]
    · rw [if_neg hseen, ih, List.filter_cons_of_pos (by simpa using hseen), List.flatMap_cons, List.filter_filter,
        List.append_assoc]
      congr 3
      refine List.filter_congr fun id _ => ?_
      simp [Bool.and_comm]

/-- Conversation view shows every conversation of the list once, in the order of its first message there, as the
    thread of all its messages that are known. -/
theorem buildConversationTree_threaded (anchors : List MessageSummary)
    (messagesByConversation : KeyMap (List MessageSummary)) (collapsed : String → Bool) :
    ∃ blocks : List (List ConversationTreeRow),
      buildConversationTree localeCompare anchors messagesByConversation collapsed = blocks.flatten ∧
        List.Forall₂ (fun conversationId rows =>
          ∃ tree, Thread localeCompare (sourceOf anchors messagesByConversation conversationId) tree ∧
            Threaded tree collapsed rows) (conversationsOf anchors) blocks := by
  let block := fun conversationId =>
    buildConversationBlock localeCompare (sourceOf anchors messagesByConversation conversationId) collapsed
  refine ⟨(conversationsOf anchors).map block, ?_, ?_⟩
  · have hsource : ∀ conversationId, (match messagesByConversation.get conversationId with
        | some (message :: messages) => message :: messages
        | _ => ((anchors.foldl (fun (map : KeyMap (List MessageSummary)) anchor => map.push anchor.conversationId anchor)
            Table.empty).get conversationId).getD []) = sourceOf anchors messagesByConversation conversationId := by
      intro conversationId
      unfold sourceOf
      rw [KeyMap.get_foldl_push anchors (·.conversationId) fun anchor => anchor, List.map_id']
      rfl
    unfold buildConversationTree
    simp only [hsource]
    rw [tree_loop block anchors [] [], List.nil_append, List.flatMap_def]
    simp
  · rw [List.forall₂_map_right_iff, List.forall₂_same]
    exact fun conversationId hmem => buildConversationBlock_threaded localeCompare
      (sourceOf_ne_nil messagesByConversation hmem) collapsed

end Conversations

end posthaste.client
