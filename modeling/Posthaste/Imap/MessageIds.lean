import Posthaste.Imap.Projection
import Posthaste.Library.Slice
import Posthaste.SmartMailboxes.Sql

open posthaste.model
open posthaste.store.smart_mailboxes (isDigit_of_mem_repr parse_digits parse_digits_repr)

namespace posthaste.imap

section Decode

/-- `text.parse::<u32>()` -/
def parse_u32 (text : List Char) : Option Nat :=
  let value := match text with
    | '+' :: digits => parse_digits digits
    | digits => parse_digits digits
  value.filter (· < 2 ^ 32)

/-- At most so many parts around the separator, the last one whole. -/
def splitn (separator : Char) : Nat → List Char → List (List Char)
  | 0, _ => []
  | 1, text => [text]
  | count + 2, text =>
    match slice.split_once separator text with
    | none => [text]
    | some (part, rest) => part :: splitn separator (count + 1) rest

def strip_prefix (mark text : List Char) : Option (List Char) :=
  if mark.isPrefixOf text then some (text.drop mark.length) else none

/-- The location that a UID-identity id names, `none` for a provider-canonical id. -/
def decode_imap_message_location (message_id : MessageId) : Option ImapMessageLocation := do
  let rest ← strip_prefix "imap:".toList message_id.toList
  match splitn ':' 3 rest with
  | [uid_validity, uid, mailbox_id] => do
    let uid_validity ← parse_u32 uid_validity
    let uid ← parse_u32 uid
    let mailbox_id ← str.hex_decode (String.ofList mailbox_id)
    let mailbox_id ← String.fromUTF8? ⟨⟨mailbox_id⟩⟩
    return { message_id, mailbox_id, uid_validity, uid, modseq := none }
  | _ => none

end Decode

section Parts

variable {separator : Char} {part rest : List Char}

theorem split_once_append (hnone : separator ∉ part) :
    slice.split_once separator (part ++ separator :: rest) = some (part, rest) := by
  induction part with
  | nil => rw [List.nil_append, slice.split_once, if_pos rfl]
  | cons c part ih =>
    rw [List.mem_cons, not_or] at hnone
    rw [List.cons_append, slice.split_once, if_neg fun hsame => hnone.1 hsame.symm, ih hnone.2, Option.map_some]

theorem splitn_append {count : Nat} (hnone : separator ∉ part) :
    splitn separator (count + 2) (part ++ separator :: rest) = part :: splitn separator (count + 1) rest := by
  rw [splitn, split_once_append hnone]

theorem strip_prefix_append (mark text : List Char) : strip_prefix mark (mark ++ text) = some text := by
  have hstarts : mark.isPrefixOf (mark ++ text) = true := List.isPrefixOf_iff_prefix.mpr (List.prefix_append _ _)
  rw [ strip_prefix, if_pos hstarts, List.drop_left]

theorem colon_not_mem_repr (n : Nat) : ':' ∉ n.repr.toList := by
  intro hmem
  have hdigit := isDigit_of_mem_repr hmem
  exact absurd hdigit (by decide)

/-- A printed number parses back, if it is in range. -/
theorem parse_u32_repr {n : Nat} (hfits : n < 2 ^ 32) : parse_u32 n.repr.toList = some n := by
  have hparsed := parse_digits_repr n
  unfold parse_u32
  split
  · next digits hraw =>
    have hplus : '+' ∈ n.repr.toList := by
      rw [hraw]
      exact List.mem_cons_self
    exact absurd (isDigit_of_mem_repr hplus) (by decide)
  · rw [hparsed, Option.filter_some, if_pos (decide_eq_true hfits)]

theorem fromUTF8?_toUTF8 (text : String) : String.fromUTF8? ⟨⟨text.toUTF8.data.toList⟩⟩ = some text := by
  show String.fromUTF8? text.toUTF8 = some text
  rw [String.fromUTF8?, String.toUTF8_eq_toByteArray, dif_pos text.isValidUTF8]
  rfl

end Parts

section Codec

/-- Decoding the id of a location gives back the location. -/
theorem decode_imap_message_id (mailbox_id : MailboxId) {uid_validity : ImapUidValidity} {uid : ImapUid}
    (hvalidity : uid_validity < 2 ^ 32) (huid : uid < 2 ^ 32) :
    decode_imap_message_location (imap_message_id mailbox_id uid_validity uid) =
      some { message_id := imap_message_id mailbox_id uid_validity uid, mailbox_id, uid_validity, uid, modseq := none } := by
  have hchars : (imap_message_id mailbox_id uid_validity uid).toList = "imap:".toList ++
      (uid_validity.repr.toList ++ ':' :: (uid.repr.toList ++ ':' ::
        (str.hex_encode mailbox_id.toUTF8.data.toList).toList)) := by
    simp only [imap_message_id, String.toList_append, List.append_assoc]
    rfl
  have hparts : splitn ':' 3 (uid_validity.repr.toList ++ ':' :: (uid.repr.toList ++ ':' ::
      (str.hex_encode mailbox_id.toUTF8.data.toList).toList)) =
      [uid_validity.repr.toList, uid.repr.toList, (str.hex_encode mailbox_id.toUTF8.data.toList).toList] := by
    rw [splitn_append (colon_not_mem_repr uid_validity), splitn_append (colon_not_mem_repr uid), splitn]
  unfold decode_imap_message_location
  rw [hchars, strip_prefix_append]
  simp only [Option.bind_eq_bind, Option.bind_some, hparts, parse_u32_repr hvalidity, parse_u32_repr huid,
    String.ofList_toList, str.hex_decode_hex_encode, fromUTF8?_toUTF8]
  rfl

/-- The ids of one family start with letters where the other has its first number. -/
theorem decode_gmail (rest : String) : decode_imap_message_location ("imap:gmail:" ++ rest) = none := by
  have hchars : ("imap:gmail:" ++ rest).toList = "imap:".toList ++ ("gmail".toList ++ ':' :: rest.toList) := by
    rw [String.toList_append]
    rfl
  unfold decode_imap_message_location
  rw [hchars, strip_prefix_append]
  simp only [Option.bind_eq_bind, Option.bind_some]
  split
  · next uid_validity uid mailbox_id hparts =>
    rw [splitn_append (by decide)] at hparts
    obtain ⟨rfl, -⟩ := List.cons.inj hparts
    rfl
  · rfl

/-- The triple an id is built of. -/
def idOf (location : MailboxId × UInt32 × UInt32) : MessageId :=
  imap_message_id location.1 location.2.1.toNat location.2.2.toNat

/-- Location ids decode to what they were built of, so no two share one, and no provider-canonical id decodes. -/
theorem location_ids_decode :
    (∀ (mailbox_id : MailboxId) (uid_validity uid : UInt32),
      decode_imap_message_location (imap_message_id mailbox_id uid_validity.toNat uid.toNat) =
        some { message_id := imap_message_id mailbox_id uid_validity.toNat uid.toNat, mailbox_id,
               uid_validity := uid_validity.toNat, uid := uid.toNat, modseq := none }) ∧
    Function.Injective idOf ∧
    (∀ gmail_id, decode_imap_message_location (gmail_message_id gmail_id) = none) ∧
    ∀ message, decode_imap_message_location (canonical_message_id message) = none ∨
      canonical_message_id message = message.id ∧ "imap:gmail:msgid:".toList.isPrefixOf message.id.toList = false := by
  refine ⟨fun mailbox_id uid_validity uid => ?_, ?_, fun gmail_id => ?_, fun message => ?_⟩
  · exact decode_imap_message_id mailbox_id uid_validity.toNat_lt uid.toNat_lt
  · rintro ⟨mailbox_id, uid_validity, uid⟩ ⟨other, other_validity, other_uid⟩ hsame
    have hfirst := decode_imap_message_id mailbox_id uid_validity.toNat_lt uid.toNat_lt
    have hsecond := decode_imap_message_id other other_validity.toNat_lt other_uid.toNat_lt
    have hid : imap_message_id mailbox_id uid_validity.toNat uid.toNat =
        imap_message_id other other_validity.toNat other_uid.toNat := hsame
    rw [← hid, hfirst, Option.some.injEq, ImapMessageLocation.mk.injEq] at hsecond
    obtain ⟨-, rfl, hvalidity, huid, -⟩ := hsecond
    rw [UInt32.toNat_inj.mp hvalidity, UInt32.toNat_inj.mp huid]
  · exact decode_gmail ("msgid:" ++ toString gmail_id)
  · unfold canonical_message_id
    split_ifs with hgmail
    · obtain ⟨rest, hrest⟩ := List.isPrefixOf_iff_prefix.mp hgmail
      have hid : message.id = "imap:gmail:" ++ ("msgid:" ++ String.ofList rest) := by
        apply String.toList_inj.mp
        rw [← hrest, String.toList_append, String.toList_append, @String.toList_ofList rest, ← List.append_assoc]
        rfl
      rw [hid]
      exact .inl (decode_gmail _)
    · have hother : "imap:gmail:msgid:".toList.isPrefixOf message.id.toList = false := Bool.eq_false_iff.mpr hgmail
      cases message.rfc_message_id with
      | none => exact .inr ⟨rfl, hother⟩
      | some rfc_message_id =>
        dsimp only
        split_ifs
        · exact .inr ⟨rfl, hother⟩
        · exact .inl (decode_gmail ("rfc822msgid:" ++ str.hex_encode rfc_message_id.toUTF8.data.toList))

end Codec

end posthaste.imap
