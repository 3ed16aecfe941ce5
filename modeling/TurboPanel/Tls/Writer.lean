import TurboPanel.Tls.Nesting

/-!
# The DER writer

The small functions of `src/lib/tls/self-signed.ts` that write a tag, a length and a content. The
length takes one octet, or two or three with the width first: what is written of a longer content is
the length modulo `2 ^ 16` (`header_tlv`). Below that the reader gives the content back
(`readNode_tlv`), and the children of a node that holds several are these (`childrenWithin_tlvs`).
-/

namespace TurboPanel.Tls

open Js List

/-- What `Uint8Array.of` keeps of a number. -/
def uint8 (n : ℤ) : UInt8 := UInt8.ofNat (n % 256).toNat

def encLen (length : ℕ) : Bytes :=
  if length < 0x80 then [uint8 length]
  else if length ≤ 0xff then [0x81, uint8 length]
  else [0x82, uint8 (and32 (shr length 8) 0xff), uint8 (and32 length 0xff)]

/-- A tag, the length and the content. -/
def tlv (tag : UInt8) (content : Bytes) : Bytes := tag :: (encLen content.length ++ content)

def seq (content : Bytes) : Bytes := tlv 0x30 content

def integer (bytes : Bytes) : Bytes :=
  match bytes with
  | [] => tlv 0x02 [0x00]
  | first :: rest =>
    if and32 first.toNat 0x80 ≠ 0 then tlv 0x02 (0x00 :: first :: rest) else tlv 0x02 (first :: rest)

/-! ## What is written of a length -/

theorem uint8_natCast (n : ℕ) : (uint8 n).toNat = n % 256 := by
  rw [uint8, UInt8.toNat_ofNat']
  omega

theorem length_encLen (length : ℕ) : (encLen length).length =
    if length < 128 then 1 else if length < 256 then 2 else 3 := by
  rw [encLen]
  split_ifs <;> first | rfl | omega

theorem length_tlv (tag : UInt8) (content : Bytes) :
    (tlv tag content).length = 1 + (encLen content.length).length + content.length := by
  rw [tlv, length_cons, length_append]
  omega

theorem header_encLen (tag : UInt8) (n : ℕ) (rest : Bytes) :
    Header (tag :: (encLen n ++ rest)) tag (1 + (encLen n).length) (n % 65536) := by
  by_cases hshort : n < 128
  · have hlow : (uint8 n).toNat = n := by rw [uint8_natCast]; omega
    have h := @Header.short tag (uint8 n) rest (by omega)
    rw [hlow] at h
    rw [encLen, if_pos hshort, Nat.mod_eq_of_lt (by omega)]
    exact h
  · by_cases hone : n ≤ 255
    · have h := @Header.long tag 0x81 [uint8 n] rest rfl (by simp) (by simp)
      have hvalue : octetsValue [uint8 n] = n := by
        rw [octetsValue, map_singleton, bigEndian_singleton, uint8_natCast]
        omega
      rw [hvalue] at h
      rw [encLen, if_neg hshort, if_pos hone, Nat.mod_eq_of_lt (by omega)]
      exact h
    · have h := @Header.long tag 0x82 [uint8 (and32 (shr n 8) 0xff), uint8 (and32 n 0xff)]
        rest rfl (by simp) (by simp)
      have hvalue : octetsValue [uint8 (and32 (shr n 8) 0xff), uint8 (and32 n 0xff)] =
          n % 65536 := by
        rw [octetsValue, map_cons, map_singleton, bigEndian_cons, bigEndian_singleton,
          and32_shr_byte, and32_natCast_byte, uint8_natCast, uint8_natCast, length_singleton]
        omega
      rw [hvalue] at h
      rw [encLen, if_neg hshort, if_neg hone]
      exact h

theorem header_tlv (tag : UInt8) (content rest : Bytes) : Header (tlv tag content ++ rest) tag
    (1 + (encLen content.length).length) (content.length % 65536) := by
  rw [tlv, cons_append, append_assoc]
  exact header_encLen tag content.length (content ++ rest)

/-! ## What is read of it -/

/-- The node carries this tag and content. -/
def Asn1Node.Carries (node : Asn1Node) (item : UInt8 × Bytes) : Prop :=
  node.tag = some (item.1.toNat : ℤ) ∧ content node = item.2

theorem content_nodeAt {pre c rest : Bytes} {p header : ℕ} {t : UInt8} (hp : pre.length = p + header)
    (hlen : signedLength c.length = c.length) :
    content (nodeAt (pre ++ (c ++ rest)) p t header c.length) = c := by
  rw [content, nodeAt, hlen, toNumber, Option.getD_some, subarray]
  dsimp only
  rw [if_neg (by omega), if_neg (by omega), show (p + header + c.length : ℤ).toNat =
    pre.length + c.length by omega, show (p + header : ℤ).toNat = pre.length by omega,
    take_length_add_append, take_left, drop_left]

theorem readNode_tlv {bytes pre c rest : Bytes} {t : UInt8} (hbytes : bytes = pre ++ (tlv t c ++ rest))
    (hlen : c.length < 65536) : ∃ node, readNode bytes pre.length = .ok node ∧
      node.Carries (t, c) ∧ node.bytes = bytes ∧
        node.contentOffset = pre.length + (1 + (encLen c.length).length : ℕ) ∧
          node.endOffset = some ((pre.length + (tlv t c).length : ℕ) : ℤ) := by
  have hsigned : signedLength c.length = c.length := signedLength_of_lt (by omega)
  have hheader := header_tlv t c rest
  rw [Nat.mod_eq_of_lt hlen] at hheader
  have hdrop : bytes.drop pre.length = tlv t c ++ rest := by rw [hbytes, drop_left]
  have hcontent : bytes = (pre ++ t :: encLen c.length) ++ (c ++ rest) := by
    simp [hbytes, tlv]
  have htotal := congrArg List.length hbytes
  rw [length_append, length_append, length_tlv] at htotal
  refine ⟨nodeAt bytes pre.length t (1 + (encLen c.length).length) c.length,
    readNode_eq_ok_iff.2 ⟨t, _, _, hdrop ▸ hheader, by rw [hsigned]; omega, rfl⟩, ⟨rfl, ?_⟩, rfl, rfl, ?_⟩
  · rw [hcontent]
    exact content_nodeAt (by simp; omega) hsigned
  · rw [nodeAt, hsigned, length_tlv]
    push_cast
    ring_nf

/-- Several of them, one after the other. -/
def tlvs (items : List (UInt8 × Bytes)) : Bytes := items.flatMap fun item => tlv item.1 item.2

theorem childrenLoop_tlvs {node : Asn1Node} {rest : Bytes} (items : List (UInt8 × Bytes))
    (hlen : ∀ item ∈ items, item.2.length < 65536) : ∀ (pre : Bytes) (steps : ℕ) (out : List Asn1Node),
      node.bytes = pre ++ (tlvs items ++ rest) →
      node.endOffset = some ((pre.length + (tlvs items).length : ℕ) : ℤ) → items.length < steps →
      ∃ nodes, childrenLoop node steps (some (pre.length : ℤ)) out = some (.ok (out ++ nodes)) ∧
        List.Forall₂ Asn1Node.Carries nodes items := by
  induction items with
  | nil =>
    intro pre steps out _ hend hsteps
    obtain ⟨steps, rfl⟩ := Nat.exists_eq_add_of_lt hsteps
    refine ⟨[], ?_, .nil⟩
    rw [childrenLoop_of_le hend (by simp [tlvs]), append_nil]
  | cons item items ih =>
    intro pre steps out hbytes hend hsteps
    obtain ⟨steps, rfl⟩ := Nat.exists_eq_add_of_lt hsteps
    have hcons : tlvs (item :: items) = tlv item.1 item.2 ++ tlvs items := flatMap_cons
    have hpos := length_tlv item.1 item.2
    rw [hcons, append_assoc] at hbytes
    rw [hcons, length_append] at hend
    obtain ⟨child, hread, hcarries, -, -, hchild⟩ :=
      readNode_tlv hbytes (hlen item mem_cons_self)
    obtain ⟨nodes, hloop, hall⟩ := ih (fun i hi => hlen i (mem_cons_of_mem _ hi))
      (pre ++ tlv item.1 item.2) (items.length + 1 + steps) (out ++ [child])
      (by rw [hbytes, append_assoc])
      (by rw [hend, length_append, Nat.add_assoc]) (by omega)
    refine ⟨child :: nodes, ?_, .cons hcarries hall⟩
    rw [length_append] at hloop
    rw [length_cons, childrenLoop_of_lt hend (by omega), hread]
    dsimp only
    rw [hchild, hloop, append_assoc, singleton_append]

/-- **The children** of a constructed node that holds several are these. -/
theorem childrenWithin_tlvs {t : UInt8} {items : List (UInt8 × Bytes)} {rest : Bytes}
    (hconstructed : t.toNat.testBit 5 = true) (hitems : ∀ item ∈ items, item.2.length < 65536)
    (hlen : (tlvs items).length < 65536) {steps : ℕ} (hsteps : items.length < steps) :
    ∃ node nodes, readNode (tlv t (tlvs items) ++ rest) 0 = .ok node ∧
      node.Carries (t, tlvs items) ∧ node.endOffset = some ((tlv t (tlvs items)).length : ℤ) ∧
        childrenWithin steps node = some (.ok nodes) ∧ List.Forall₂ Asn1Node.Carries nodes items := by
  obtain ⟨node, hread, hcarries, hbytes, hoffset, hend⟩ :=
    @readNode_tlv _ [] (tlvs items) rest t rfl hlen
  rw [length_nil, Nat.zero_add] at hend
  rw [length_nil, Nat.cast_zero, zero_add] at hoffset
  have hnode : node.Constructed := by
    rw [Asn1Node.Constructed, hcarries.1, toNumber, Option.getD_some,
      show (0x20 : ℤ) = 2 ^ 5 by norm_num, Ne, and32_two_pow _ (by decide), hconstructed]
    exact Bool.noConfusion
  obtain ⟨nodes, hloop, hall⟩ := @childrenLoop_tlvs node rest items hitems
    (t :: encLen (tlvs items).length) steps [] (by rw [hbytes, tlv]; simp)
    (by rw [hend, length_tlv, length_cons]; congr 2; omega) hsteps
  refine ⟨node, nodes, by rw [← hread]; rfl, hcarries, hend, ?_, hall⟩
  rw [childrenWithin_of_constructed hnode, hoffset, ← nil_append nodes, ← hloop,
    length_cons, Nat.add_comm]

end TurboPanel.Tls
