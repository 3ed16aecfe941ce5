import TurboPanel.Data.BigEndian
import TurboPanel.Js.Int32
import TurboPanel.Js.Text

/-!
# The DER reader

The model of `src/lib/tls/asn1.ts`. A node is read at an offset of an array; its length may take up
to four octets, which are put together with 32-bit signed shifts. An array answers `undefined`
before its start, and a sum with `undefined` is not a number: both matter only behind a negative
length.

At an offset of the array the reader follows `Header`, which says what the octets mean without the
shifts (`readNode_eq_ok_iff`).
-/

namespace TurboPanel.Tls

open Js List

abbrev Bytes := List UInt8

structure Asn1Error where
  message : String
  deriving DecidableEq

/-- `bytes[i]`. -/
def byteAt (bytes : Bytes) (i : ℤ) : Option ℤ :=
  if i < 0 then none else (bytes[i.toNat]?).map fun b => b.toNat

structure Asn1Node where
  tag : Option ℤ
  headerLength : ℤ
  contentOffset : ℤ
  contentLength : Option ℤ
  /-- Absolute end offset in the buffer; `none` is not a number. -/
  endOffset : Option ℤ
  bytes : Bytes
  deriving DecidableEq

/-- What a number is to the bitwise operators. -/
def toNumber (value : Option ℤ) : ℤ := value.getD 0

/-- The end of `readNode`: the content has to be in the array. -/
def nodeOf (bytes : Bytes) (tag : Option ℤ) (headerLength contentOffset : ℤ)
    (contentLength : Option ℤ) : Except Asn1Error Asn1Node :=
  let endOffset := contentLength.map (contentOffset + ·)
  if endOffset.any fun e => (bytes.length : ℤ) < e then .error ⟨"truncated content"⟩
  else .ok { tag, headerLength, contentOffset, contentLength, endOffset, bytes }

def readNode (bytes : Bytes) (offset : ℤ) : Except Asn1Error Asn1Node :=
  if offset ≥ bytes.length then .error ⟨"unexpected end of DER"⟩
  else
    let tag := byteAt bytes offset
    let cursor := offset + 1
    if cursor ≥ bytes.length then .error ⟨"missing length"⟩
    else
      let firstLen := byteAt bytes cursor
      let cursor := cursor + 1
      if and32 (toNumber firstLen) 0x80 = 0 then nodeOf bytes tag 2 cursor firstLen
      else
        let lenBytes := and32 (toNumber firstLen) 0x7f
        if lenBytes = 0 ∨ lenBytes > 4 then .error ⟨"unsupported DER length"⟩
        else if cursor + lenBytes > bytes.length then .error ⟨"truncated length"⟩
        else
          let contentLength := (List.range lenBytes.toNat).foldl
            (fun length (i : ℕ) => or32 (shl length 8) (toNumber (byteAt bytes (cursor + i)))) 0
          nodeOf bytes tag (2 + lenBytes) (cursor + lenBytes) (some contentLength)

/-- `bytes.subarray(begin, end)`: a negative index counts from the end. -/
def subarray (bytes : Bytes) (first last : ℤ) : Bytes :=
  let clamp := fun i : ℤ => if i < 0 then (i + bytes.length).toNat else i.toNat
  (bytes.take (clamp last)).drop (clamp first)

def content (node : Asn1Node) : Bytes :=
  subarray node.bytes node.contentOffset (toNumber node.endOffset)

/-- The loop of `children`, which has not ended when the steps run out. -/
def childrenLoop (node : Asn1Node) : ℕ → Option ℤ → List Asn1Node →
    Option (Except Asn1Error (List Asn1Node))
  | 0, _, _ => none
  | steps + 1, offset, out =>
    match offset, node.endOffset with
    | some offset, some endOffset =>
      if offset < endOffset then
        match readNode node.bytes offset with
        | .error e => some (.error e)
        | .ok child => childrenLoop node steps child.endOffset (out ++ [child])
      else some (.ok out)
    | _, _ => some (.ok out)

/-- `children`, as far as `steps` rounds of its loop go. -/
def childrenWithin (steps : ℕ) (node : Asn1Node) : Option (Except Asn1Error (List Asn1Node)) :=
  if and32 (toNumber node.tag) 0x20 = 0 then some (.ok [])
  else childrenLoop node steps (some node.contentOffset) []

def toHex (n : ℤ) : String := String.ofList (Nat.toDigits 16 n.toNat)

def expectTag (node : Asn1Node) (tag : ℤ) (label : String) : Except Asn1Error Unit :=
  if node.tag = some tag then .ok ()
  else
    match node.tag with
    | some got => .error ⟨"expected " ++ label ++ " tag 0x" ++ toHex tag ++ ", got 0x" ++ toHex got⟩
    | none => .error ⟨"Cannot read properties of undefined (reading 'toString')"⟩

/-- Decode an ASN.1 INTEGER: unsigned, one leading zero stripped. -/
def readInteger (node : Asn1Node) : Except Asn1Error Bytes := do
  expectTag node 0x02 "INTEGER"
  let raw := content node
  if raw.length > 1 ∧ raw.head? = some 0x00 then pure raw.tail
  else pure raw

variable {node : Asn1Node}

theorem expectTag_of_tag {tag : ℤ} (h : node.tag = some tag) (label : String) :
    expectTag node tag label = .ok () :=
  if_pos h

theorem readInteger_of_tag (h : node.tag = some 0x02) : readInteger node =
    .ok (if (content node).length > 1 ∧ (content node).head? = some 0x00 then (content node).tail
      else content node) := by
  rw [readInteger, expectTag_of_tag h]
  dsimp only [bind, Except.bind]
  split_ifs <;> rfl

/-! ## What the octets mean -/

/-- The number that octets write, the highest first. -/
def octetsValue (bs : Bytes) : ℕ := bigEndian 256 (bs.map UInt8.toNat)

/-- The bytes start with a header: its tag, how long it is and how long the content is. -/
inductive Header : Bytes → UInt8 → ℕ → ℕ → Prop
  | short {t b : UInt8} {rest : Bytes} (lt : b.toNat < 128) : Header (t :: b :: rest) t 2 b.toNat
  | long {t b : UInt8} {octets rest : Bytes} (width : b.toNat = 128 + octets.length)
      (pos : 0 < octets.length) (le : octets.length ≤ 4) :
      Header (t :: b :: (octets ++ rest)) t (2 + octets.length) (octetsValue octets)

/-- A length as the reader has it: the signed value of its low 32 bits. -/
def signedLength (length : ℕ) : ℤ := (length : ℤ).bmod 4294967296

/-- The node behind a header at an offset. -/
def nodeAt (bytes : Bytes) (p : ℕ) (t : UInt8) (header length : ℕ) : Asn1Node :=
  { tag := some t.toNat
    headerLength := header
    contentOffset := p + header
    contentLength := some (signedLength length)
    endOffset := some (p + header + signedLength length)
    bytes }

variable {length : ℕ}

theorem signedLength_of_lt (h : length < 2 ^ 31) : signedLength length = length := by
  apply Int.bmod_eq_of_le_mul_two <;> omega

theorem octetsValue_lt (bs : Bytes) : octetsValue bs < 256 ^ bs.length := by
  have h := @bigEndian_lt 256 (bs.map UInt8.toNat) (by decide) fun d hd => by
    obtain ⟨b, -, rfl⟩ := mem_map.1 hd
    exact b.toNat_lt
  rwa [length_map] at h

theorem header_cons_cons_iff {t b t' : UInt8} {rest : Bytes} {header : ℕ} :
    Header (t :: b :: rest) t' header length ↔ t' = t ∧
      (b.toNat < 128 ∧ header = 2 ∧ length = b.toNat ∨
        ∃ width, b.toNat = 128 + width ∧ 0 < width ∧ width ≤ 4 ∧ width ≤ rest.length ∧
          header = 2 + width ∧ length = octetsValue (rest.take width)) := by
  constructor
  · intro h
    cases h with
    | short lt => exact ⟨rfl, .inl ⟨lt, rfl, rfl⟩⟩
    | @long t b octets rest width pos le =>
      refine ⟨rfl, .inr ⟨octets.length, width, pos, le, ?_, rfl, by rw [take_left]⟩⟩
      rw [length_append]
      omega
  · rintro ⟨rfl, ⟨hlt, rfl, rfl⟩ | ⟨width, hwidth, hpos, hle, hlen, rfl, rfl⟩⟩
    · exact .short hlt
    · have htake : (rest.take width).length = width := length_take_of_le hlen
      have h := @Header.long t' b (rest.take width) (rest.drop width) (by omega) (by omega) (by omega)
      rwa [take_append_drop, htake] at h

theorem Header.bounds {s : Bytes} {t : UInt8} {header : ℕ} (h : Header s t header length) :
    2 ≤ header ∧ header ≤ s.length ∧ length < 4294967296 := by
  cases h with
  | short lt =>
    simp only [length_cons]
    omega
  | @long t b octets rest width pos le =>
    have hpow : 256 ^ octets.length ≤ 256 ^ 4 := Nat.pow_le_pow_right (by decide) le
    have hlt := octetsValue_lt octets
    simp only [length_cons, length_append]
    omega

theorem nodeOf_eq_ok_iff {bytes : Bytes} {tag : Option ℤ} {header offset length : ℤ}
    : nodeOf bytes tag header offset (some length) = .ok node ↔ offset + length ≤ bytes.length ∧
        node = { tag, headerLength := header, contentOffset := offset, contentLength := some length
                 endOffset := some (offset + length), bytes } := by
  rw [nodeOf]
  simp only [Option.map_some, Option.any_some, decide_eq_true_eq]
  split_ifs with h
  · simp [Int.not_le.2 h]
  · simp [Int.not_lt.1 h, eq_comm]

theorem byteAt_add (bytes : Bytes) (p k : ℕ) :
    byteAt bytes (p + k) = ((bytes.drop p)[k]?).map fun b => (b.toNat : ℤ) := by
  rw [byteAt, if_neg (by omega), getElem?_drop]
  rfl

theorem foldl_signed {f : ℤ → UInt8 → ℤ} {base m : ℕ} {digit : UInt8 → ℕ}
    (hf : ∀ n b, f n b = (n * base + digit b : ℤ).bmod m) (bs : Bytes) :
    bs.foldl f 0 = ((bigEndian base (bs.map digit) : ℕ) : ℤ).bmod m := by
  induction bs using List.reverseRecOn with
  | nil => simp [bigEndian]
  | append_singleton bs b ih =>
    rw [foldl_append, ih, map_append, map_singleton, bigEndian_concat,
      foldl_cons, foldl_nil, hf, ← Int.bmod_add_bmod, Int.bmod_mul_bmod, Int.bmod_add_bmod]
    push_cast
    rfl

theorem foldl_length (bs : Bytes) :
    bs.foldl (fun (length : ℤ) b => or32 (shl length 8) b.toNat) 0 = signedLength (octetsValue bs) := by
  unfold signedLength octetsValue
  refine foldl_signed (fun n b => ?_) bs
  rw [or32_shl n (by decide) b.toNat_lt, show ((256 : ℕ) : ℤ) = 2 ^ 8 by norm_num,
    show (4294967296 : ℕ) = 2 ^ 32 by norm_num]

theorem foldl_range_length {bytes octets rest : Bytes} {p : ℕ} {t b : UInt8}
    (h : bytes.drop p = t :: b :: (octets ++ rest)) :
    (List.range octets.length).foldl (fun length (i : ℕ) =>
        or32 (shl length 8) (toNumber (byteAt bytes (p + 1 + 1 + i)))) 0 =
      signedLength (octetsValue octets) := by
  have hbytes : (List.range octets.length).map (fun i : ℕ =>
      toNumber (byteAt bytes (p + 1 + 1 + i))) = octets.map fun b => (b.toNat : ℤ) := by
    refine ext_getElem (by simp) fun i hi hi' => ?_
    have hlt : i < octets.length := by simpa using hi
    have hoct : (octets ++ rest)[i]? = some octets[i] := by
      rw [getElem?_append_left hlt, getElem?_eq_getElem hlt]
    rw [getElem_map, getElem_map, getElem_range,
      show (p + 1 + 1 + i : ℤ) = p + ((i + 2 : ℕ) : ℤ) by push_cast; ring, byteAt_add, h,
      getElem?_cons_succ, getElem?_cons_succ, hoct]
    rfl
  calc _ = ((List.range octets.length).map fun i : ℕ =>
          toNumber (byteAt bytes (p + 1 + 1 + i))).foldl (fun length b => or32 (shl length 8) b) 0 :=
        foldl_map.symm
    _ = _ := by rw [hbytes, foldl_map, foldl_length]

/-- **What the reader reads** at an offset of the array: the header there, with the length as 32-bit
shifts make it, if the content ends in the array. -/
theorem readNode_eq_ok_iff {bytes : Bytes} {p : ℕ} :
    readNode bytes p = .ok node ↔ ∃ t header length, Header (bytes.drop p) t header length ∧
      (p + header + signedLength length : ℤ) ≤ bytes.length ∧ node = nodeAt bytes p t header length := by
  have hlength := congrArg List.length (take_append_drop p bytes)
  rw [length_append, length_take] at hlength
  rw [readNode]
  cases hs : bytes.drop p with
  | nil =>
    rw [drop_eq_nil_iff] at hs
    rw [if_pos (by omega)]
    refine ⟨nofun, ?_⟩
    rintro ⟨t, header, length, hheader, -⟩
    cases hheader
  | cons t s =>
    rw [hs, length_cons] at hlength
    have htag : byteAt bytes p = some (t.toNat : ℤ) := by
      have h := byteAt_add bytes p 0
      rwa [hs, Nat.cast_zero, add_zero] at h
    rw [if_neg (by omega)]
    cases s with
    | nil =>
      rw [length_nil] at hlength
      dsimp only
      rw [if_pos (by omega)]
      refine ⟨nofun, ?_⟩
      rintro ⟨t, header, length, hheader, -⟩
      cases hheader
    | cons b rest =>
      rw [length_cons] at hlength
      have hfirst : byteAt bytes (p + 1) = some (b.toNat : ℤ) := by
        have h := byteAt_add bytes p 1
        rwa [hs, Nat.cast_one] at h
      have hb := b.toNat_lt
      simp only [htag, hfirst, toNumber, Option.getD_some, and32_high, and32_low]
      rw [if_neg (by omega)]
      by_cases hlt : b.toNat < 128
      · rw [if_pos hlt, nodeOf_eq_ok_iff]
        constructor
        · rintro ⟨hle, rfl⟩
          refine ⟨t, 2, b.toNat, .short hlt, ?_, ?_⟩
          · rw [signedLength_of_lt (by omega)]
            omega
          · rw [nodeAt, signedLength_of_lt (by omega)]
            simp only [add_assoc, one_add_one_eq_two]
            push_cast
            ring_nf
        · rintro ⟨t', header, length, hheader, hle, rfl⟩
          obtain ⟨rfl, ⟨-, rfl, rfl⟩ | ⟨width, hwidth, -⟩⟩ := header_cons_cons_iff.1 hheader
          · rw [signedLength_of_lt (by omega)] at hle
            refine ⟨by push_cast at hle; omega, ?_⟩
            rw [nodeAt, signedLength_of_lt (by omega)]
            simp only [add_assoc, one_add_one_eq_two]
            push_cast
            ring_nf
          · omega
      · rw [if_neg hlt]
        obtain ⟨width, hwidth⟩ : ∃ width, b.toNat = 128 + width := ⟨b.toNat - 128, by omega⟩
        rw [show b.toNat % 128 = width by omega]
        by_cases hsupported : width = 0 ∨ width > 4
        · rw [if_pos (by omega)]
          refine ⟨nofun, ?_⟩
          rintro ⟨t', header, length, hheader, -⟩
          obtain ⟨-, ⟨hlt', -⟩ | ⟨width', hwidth', hpos, hle, -⟩⟩ := header_cons_cons_iff.1 hheader <;>
            omega
        · rw [if_neg (by omega)]
          by_cases hlong : rest.length < width
          · rw [if_pos (by omega)]
            refine ⟨nofun, ?_⟩
            rintro ⟨t', header, length, hheader, -⟩
            obtain ⟨-, ⟨hlt', -⟩ | ⟨width', hwidth', -, -, hle, -⟩⟩ := header_cons_cons_iff.1 hheader <;>
              omega
          · rw [if_neg (by omega)]
            have hoctets : (rest.take width).length = width := length_take_of_le (by omega)
            have hfold := @foldl_range_length bytes (rest.take width) (rest.drop width) p t b
              (by rw [take_append_drop, hs])
            rw [hoctets] at hfold
            simp only [toNumber] at hfold
            rw [Int.toNat_natCast, hfold, nodeOf_eq_ok_iff]
            constructor
            · rintro ⟨hle, rfl⟩
              refine ⟨t, 2 + width, octetsValue (rest.take width), header_cons_cons_iff.2 ⟨rfl,
                .inr ⟨width, hwidth, by omega, by omega, by omega, rfl, rfl⟩⟩, by omega, ?_⟩
              rw [nodeAt]
              push_cast
              ring_nf
            · rintro ⟨t', header, length, hheader, hle, rfl⟩
              obtain ⟨rfl, ⟨hlt', -⟩ | ⟨width', hwidth', -, -, -, rfl, rfl⟩⟩ :=
                header_cons_cons_iff.1 hheader
              · omega
              · obtain rfl : width = width' := by omega
                refine ⟨by omega, ?_⟩
                rw [nodeAt]
                push_cast
                ring_nf

end TurboPanel.Tls
