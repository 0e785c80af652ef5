import Ekafleet.Lib.Codec
import Ekafleet.Lib.Text

/-! Names in DNS packets | source: dns/listener.rs

    A name is a sequence of labels, each behind its length, with a zero at the end. Two bits of a
    length mark a pointer to another place, which is not followed. -/

namespace Ekafleet.Dns

/-- The labels from an offset on, and the offset behind them. -/
def parseLabels (packet : Bytes) (offset : ℕ) : Option (List String × ℕ) :=
  if h : packet.length ≤ offset then none
  else
    let len := (packet.get ⟨offset, Nat.lt_of_not_le h⟩).toNat
    if len = 0 then some ([], offset + 1)
    else if len &&& 0xC0 = 0xC0 then some ([], offset + 2)
    else if packet.length < offset + 1 + len then none
    else
      match Text.fromUtf8 ((packet.drop (offset + 1)).take len) with
      | none => none
      | some label =>
        (parseLabels packet (offset + 1 + len)).map fun r => (label :: r.1, r.2)
termination_by packet.length - offset

/-- Parse a name from the packet: the name, and the offset behind it. -/
def parseQname (packet : Bytes) (offset : ℕ) : Option (String × ℕ) :=
  (parseLabels packet offset).map fun r => (".".intercalate r.1, r.2)

/-- A label behind its length, which is cut to a byte. -/
def encodeLabel (label : String) : Bytes :=
  if label = "" then [] else UInt8.ofNat (Text.utf8 label).length :: Text.utf8 label

/-- Encode a domain name (length-prefixed labels). -/
def encodeQname (name : String) : Bytes := (Text.split '.' name).flatMap encodeLabel ++ [0]

/-- A label of 1 to 63 bytes without dots. -/
def IsLabel (label : String) : Prop :=
  1 ≤ (Text.utf8 label).length ∧ (Text.utf8 label).length ≤ 63 ∧ '.' ∉ label.toList

theorem split_intercalate : ∀ {labels : List String}, labels ≠ [] → (∀ l ∈ labels, '.' ∉ l.toList) →
    Text.split '.' (".".intercalate labels) = labels
  | [label], _, h => by
    rw [String.intercalate_singleton, Text.split_of_not_mem (h label List.mem_cons_self)]
  | label :: next :: rest, _, h => by
    rw [String.intercalate_cons_cons, String.append_assoc]
    have hrest := split_intercalate (List.cons_ne_nil next rest) fun l hl =>
      h l (List.mem_cons_of_mem _ hl)
    change Text.split '.' (label ++ (String.ofList ['.'] ++ _)) = _
    rw [Text.split_append, hrest, Text.split_of_not_mem (h label List.mem_cons_self)]
    rfl

theorem encodeQname_intercalate {labels : List String} (h : ∀ l ∈ labels, IsLabel l) :
    encodeQname (".".intercalate labels) = labels.flatMap encodeLabel ++ [0] := by
  cases labels with
  | nil => rfl
  | cons label rest =>
    rw [encodeQname, split_intercalate (List.cons_ne_nil _ _) fun l hl => (h l hl).2.2]

/-- RUN: the loop reads label after label, whatever stands before and behind them. -/
theorem parseLabels_encoded {labels : List String} (h : ∀ l ∈ labels, IsLabel l) (post : Bytes) :
    ∀ pre : Bytes, parseLabels (pre ++ (labels.flatMap encodeLabel ++ [0] ++ post)) pre.length =
      some (labels, pre.length + (labels.flatMap encodeLabel ++ [0]).length) := by
  induction labels with
  | nil =>
    intro pre
    rw [parseLabels, dif_neg (by simp)]
    simp
  | cons label rest ih =>
    intro pre
    obtain ⟨hone, hmax, -⟩ := h label List.mem_cons_self
    have hne : label ≠ "" := by
      rintro rfl
      cases hone
    have hlen : (UInt8.ofNat (Text.utf8 label).length).toNat = (Text.utf8 label).length := by
      rw [UInt8.toNat_ofNat']
      omega
    have hpointer : ¬ (Text.utf8 label).length &&& 0xC0 = 0xC0 := by
      intro hand
      have := Nat.and_le_left (n := (Text.utf8 label).length) (m := 0xC0)
      omega
    have ih := ih (fun l hl => h l (List.mem_cons_of_mem _ hl))
      (pre ++ UInt8.ofNat (Text.utf8 label).length :: Text.utf8 label)
    set post' := rest.flatMap encodeLabel ++ [0] ++ post with hpost'
    have hpacket : pre ++ ((label :: rest).flatMap encodeLabel ++ [0] ++ post) =
        pre ++ UInt8.ofNat (Text.utf8 label).length :: Text.utf8 label ++ post' := by
      simp [encodeLabel, hne, hpost']
    have htake : ((pre ++ UInt8.ofNat (Text.utf8 label).length :: Text.utf8 label ++ post').drop
        (pre.length + 1)).take (Text.utf8 label).length = Text.utf8 label := by
      simp [List.drop_append, List.drop_eq_nil_of_le]
    rw [hpacket, parseLabels, dif_neg (by simp)]
    simp only [List.get_eq_getElem, List.append_assoc, List.getElem_append_right (Nat.le_refl _),
      Nat.sub_self, List.cons_append, List.getElem_cons_zero, hlen]
    rw [if_neg (by omega), if_neg hpointer, if_neg (by simp; omega)]
    simp only [List.append_assoc, List.cons_append] at htake ih
    rw [htake, Text.fromUtf8_utf8]
    have hnext : pre.length + 1 + (Text.utf8 label).length =
        (pre ++ UInt8.ofNat (Text.utf8 label).length :: Text.utf8 label).length := by
      simp
      omega
    simp only [hnext, ih, Option.map_some]
    simp [encodeLabel, hne]
    omega

/-- CORRECT: a name of labels is read back from wherever it stands in a packet. -/
theorem qname_roundtrip (labels : List String) (h : ∀ l ∈ labels, IsLabel l) (pre post : Bytes) :
    parseQname (pre ++ encodeQname (".".intercalate labels) ++ post) pre.length =
      some (".".intercalate labels,
        pre.length + (encodeQname (".".intercalate labels)).length) := by
  rw [encodeQname_intercalate h, parseQname, List.append_assoc, parseLabels_encoded h]
  rfl

theorem qname_roundtrip_web :
    parseQname (List.replicate 12 0 ++ encodeQname (".".intercalate ["web", "fleet"]) ++ [0, 1])
      12 =
      some (".".intercalate ["web", "fleet"],
        12 + (encodeQname (".".intercalate ["web", "fleet"])).length) :=
  qname_roundtrip ["web", "fleet"] (by unfold IsLabel; decide +kernel) (List.replicate 12 0) [0, 1]

end Ekafleet.Dns
