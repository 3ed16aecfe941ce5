import TurboPanel.Tls.Writer

/-!
# The two forms of a signature

`ecdsaRawToDer` and `ecdsaDerToRaw` of `src/lib/tls/self-signed.ts`: the fixed-width halves of a raw
signature, and the sequence of two integers. Each half loses its leading zeros and gets one back
where its first octet has the high bit, which makes the two integers minimal (`derInteger_integer`);
the way back pads them to their width.
-/

namespace TurboPanel.Tls

open Js List

/-! ## The code -/

def stripLeadingZeros : Bytes → Bytes
  | [] => []
  | [b] => [b]
  | b :: b' :: rest => if b = 0 then stripLeadingZeros (b' :: rest) else b :: b' :: rest

def ecdsaRawToDer (raw : Bytes) : Bytes :=
  let half := raw.length / 2
  seq (integer (stripLeadingZeros (raw.take half)) ++ integer (stripLeadingZeros (raw.drop half)))

/-- `raw.set(value, offset)`. -/
def setAt (raw value : Bytes) (offset : ℕ) : Bytes :=
  raw.take offset ++ value ++ raw.drop (offset + value.length)

/-- The loop over the parts, which answers `null` for one that does not fit. -/
def setParts (coordinateBytes : ℕ) : ℕ → List Asn1Node → Bytes → Except Asn1Error (Option Bytes)
  | _, [], raw => .ok (some raw)
  | index, part :: parts, raw =>
    match readInteger part with
    | .error e => .error e
    | .ok value =>
      if value.length > coordinateBytes then .ok none
      else
        let offset := coordinateBytes * (index + 1) - value.length
        setParts coordinateBytes (index + 1) parts (setAt raw value offset)

/-- What `ecdsaDerToRaw` tries, as far as `steps` rounds of the loop of `children` go. -/
def tryDerToRaw (steps : ℕ) (der : Bytes) (coordinateBytes : ℕ) :
    Option (Except Asn1Error (Option Bytes)) :=
  match readNode der 0 with
  | .error e => some (.error e)
  | .ok sigValue =>
    match expectTag sigValue 0x30 "Ecdsa-Sig-Value" with
    | .error e => some (.error e)
    | .ok () =>
      match childrenWithin steps sigValue with
      | none => none
      | some (.error e) => some (.error e)
      | some (.ok parts) =>
        if parts.length ≠ 2 ∨ sigValue.endOffset ≠ some (der.length : ℤ) then some (.ok none)
        else some (setParts coordinateBytes 0 parts (List.replicate (coordinateBytes * 2) 0))

/-- `ecdsaDerToRaw`: whatever is thrown is `null`. -/
def ecdsaDerToRawWithin (steps : ℕ) (der : Bytes) (coordinateBytes : ℕ) : Option (Option Bytes) :=
  (tryDerToRaw steps der coordinateBytes).map fun
    | .ok raw => raw
    | .error _ => none

/-! ## What minimal means -/

/-- The octets of a length in DER: itself below 128, else as many octets as it needs and how many
they are. -/
inductive DerLength : ℕ → Bytes → Prop
  | short {length : ℕ} {b : UInt8} (h : b.toNat = length) (lt : length < 128) : DerLength length [b]
  | long {length : ℕ} {b d : UInt8} {ds : Bytes} (value : octetsValue (d :: ds) = length)
      (ge : 128 ≤ length) (minimal : d ≠ 0) (count : b.toNat = 128 + (d :: ds).length) :
      DerLength length (b :: d :: ds)

/-- A tag, the DER length and the content. -/
def DerNode (tag : UInt8) (content bytes : Bytes) : Prop :=
  ∃ length, DerLength content.length length ∧ bytes = tag :: (length ++ content)

/-- The content of a non-negative integer: an octet at least, no sign bit, and no leading zero but
for one that keeps the sign bit away. -/
structure MinimalContent (content : Bytes) : Prop where
  first : ∃ b bs, content = b :: bs ∧ b.toNat < 128
  minimal : ∀ b bs, content = 0 :: b :: bs → 128 ≤ b.toNat

/-- The DER of a non-negative integer. -/
def DerInteger (value : ℕ) (bytes : Bytes) : Prop :=
  ∃ content, MinimalContent content ∧ octetsValue content = value ∧ DerNode 0x02 content bytes

/-- The DER of a sequence of two non-negative integers. -/
def DerSignature (r s : ℕ) (bytes : Bytes) : Prop :=
  ∃ first second, DerInteger r first ∧ DerInteger s second ∧ DerNode 0x30 (first ++ second) bytes

/-! ## There is one minimal form -/

theorem octetsValue_cons (b : UInt8) (bs : Bytes) :
    octetsValue (b :: bs) = b.toNat * 256 ^ bs.length + octetsValue bs := by
  rw [octetsValue, map_cons, bigEndian_cons, length_map]
  rfl

theorem octetsValue_zeros_append (k : ℕ) (bs : Bytes) :
    octetsValue (List.replicate k 0 ++ bs) = octetsValue bs := by
  rw [octetsValue, map_append, map_replicate]
  exact bigEndian_replicate_append 256 k _

/-! ## What the writer writes -/

theorem derLength_encLen {length : ℕ} (h : length < 65536) : DerLength length (encLen length) := by
  rw [encLen]
  split_ifs with hshort hone
  · exact .short (by rw [uint8_natCast]; omega) hshort
  · refine .long ?_ (by omega) ?_ rfl
    · rw [octetsValue, map_singleton, bigEndian_singleton, uint8_natCast]
      omega
    · intro hzero
      have h := uint8_natCast length
      rw [hzero, UInt8.toNat_zero] at h
      omega
  · refine .long ?_ (by omega) ?_ rfl
    · rw [octetsValue_cons, octetsValue, map_singleton, bigEndian_singleton, and32_shr_byte,
        and32_natCast_byte, uint8_natCast, uint8_natCast, length_singleton]
      omega
    · intro hzero
      have h := uint8_natCast (length / 256 % 256)
      rw [and32_shr_byte] at hzero
      rw [hzero, UInt8.toNat_zero] at h
      omega

theorem derNode_tlv {tag : UInt8} {content : Bytes} (h : content.length < 65536) :
    DerNode tag content (tlv tag content) :=
  ⟨_, derLength_encLen h, rfl⟩

theorem stripLeadingZeros_spec {bs : Bytes} (hne : bs ≠ []) :
    ∃ k b rest, bs = List.replicate k 0 ++ b :: rest ∧ stripLeadingZeros bs = b :: rest ∧
      (b = 0 → rest = []) := by
  induction bs using stripLeadingZeros.induct with
  | case1 => exact absurd rfl hne
  | case2 b => exact ⟨0, b, [], rfl, rfl, fun _ => rfl⟩
  | case3 b' rest ih =>
    obtain ⟨k, c, cs, hbs, hstrip, hzero⟩ := ih (cons_ne_nil _ _)
    refine ⟨k + 1, c, cs, ?_, by rw [stripLeadingZeros, if_pos rfl, hstrip], hzero⟩
    rw [replicate_succ, cons_append, ← hbs]
  | case4 b b' rest hb =>
    exact ⟨0, b, b' :: rest, rfl, by rw [stripLeadingZeros, if_neg hb], fun h => absurd h hb⟩

/-- The content that `integer` gives a stripped half. -/
def integerContent (b : UInt8) (rest : Bytes) : Bytes :=
  if b.toNat < 128 then b :: rest else 0 :: b :: rest

theorem integer_cons (b : UInt8) (rest : Bytes) :
    integer (b :: rest) = tlv 0x02 (integerContent b rest) := by
  simp only [integer, integerContent, Ne, and32_high]
  split_ifs <;> rfl

theorem length_integerContent_le (b : UInt8) (rest : Bytes) :
    (integerContent b rest).length ≤ rest.length + 2 := by
  rw [integerContent]
  split_ifs <;> simp

theorem octetsValue_integerContent (b : UInt8) (rest : Bytes) :
    octetsValue (integerContent b rest) = octetsValue (b :: rest) := by
  rw [integerContent]
  split_ifs
  · rfl
  · exact octetsValue_zeros_append 1 _

theorem minimalContent_integerContent {b : UInt8} {rest : Bytes} (hzero : b = 0 → rest = []) :
    MinimalContent (integerContent b rest) := by
  rw [integerContent]
  split_ifs with hb
  · refine ⟨⟨b, rest, rfl, hb⟩, fun c cs heq => ?_⟩
    obtain ⟨h0, hrest⟩ := List.cons.inj heq
    rw [hzero h0] at hrest
    cases hrest
  · refine ⟨⟨0, b :: rest, rfl, by decide⟩, fun c cs heq => ?_⟩
    obtain ⟨-, hrest⟩ := List.cons.inj heq
    cases hrest
    omega

theorem derInteger_integer {half : Bytes} (hne : half ≠ []) (hlen : half.length < 65534) :
    DerInteger (octetsValue half) (integer (stripLeadingZeros half)) := by
  obtain ⟨k, b, rest, rfl, hstrip, hzero⟩ := stripLeadingZeros_spec hne
  have hle := length_integerContent_le b rest
  simp only [length_append, length_cons] at hlen
  rw [hstrip, integer_cons]
  exact ⟨integerContent b rest, minimalContent_integerContent hzero,
    by rw [octetsValue_integerContent, octetsValue_zeros_append], derNode_tlv (by omega)⟩

/-! ## The way back -/

theorem readInteger_integer {b : UInt8} {rest : Bytes} (hzero : b = 0 → rest = []) {node : Asn1Node}
    (h : node.Carries (0x02, integerContent b rest)) : readInteger node = .ok (b :: rest) := by
  rw [readInteger_of_tag h.1, h.2]
  dsimp only
  rw [integerContent]
  by_cases hb : b.toNat < 128
  · -- a leading zero of the half itself stands alone
    have hkeep : ¬((b :: rest).length > 1 ∧ (b :: rest).head? = some 0) := by
      rintro ⟨hlen, hhead⟩
      rw [hzero (Option.some.inj hhead)] at hlen
      simp at hlen
    rw [if_pos hb, if_neg hkeep]
  · rw [if_neg hb, if_pos ⟨by simp, rfl⟩, tail_cons]

theorem setAt_zeros (pre post : Bytes) {n : ℕ} {value : Bytes} (h : value.length ≤ n) :
    setAt (pre ++ (List.replicate n 0 ++ post)) value (pre.length + n - value.length) =
      pre ++ (List.replicate (n - value.length) 0 ++ value ++ post) := by
  have htake : (pre ++ (List.replicate n (0 : UInt8) ++ post)).take (pre.length + n - value.length) =
      pre ++ List.replicate (n - value.length) 0 := by
    rw [Nat.add_sub_assoc h, take_length_add_append, take_append_of_le_length (by simp),
      take_replicate, Nat.min_eq_left (Nat.sub_le _ _)]
  have hdrop : (pre ++ (List.replicate n (0 : UInt8) ++ post)).drop (pre.length + n) = post := by
    rw [drop_length_add_append]
    exact drop_left' (length_replicate)
  rw [setAt, htake, Nat.sub_add_cancel (h.trans (Nat.le_add_left _ _)), hdrop]
  simp

theorem setParts_halves {n k k' : ℕ} {b b' : UInt8} {rest rest' : Bytes} (hzero : b = 0 → rest = [])
    (hzero' : b' = 0 → rest' = []) (hn : k + (rest.length + 1) = n)
    (hn' : k' + (rest'.length + 1) = n) {part part' : Asn1Node}
    (h : part.Carries (0x02, integerContent b rest))
    (h' : part'.Carries (0x02, integerContent b' rest')) :
    setParts n 0 [part, part'] (List.replicate (n * 2) 0) = .ok (some
      (List.replicate k 0 ++ b :: rest ++ (List.replicate k' 0 ++ b' :: rest'))) := by
  have hfirst := @setAt_zeros [] (List.replicate n 0) n (b :: rest) (by simp; omega)
  have hsecond := @setAt_zeros (List.replicate k 0 ++ b :: rest) [] n (b' :: rest') (by simp; omega)
  have hlen : (List.replicate k 0 ++ b :: rest).length = n := by simp [hn]
  have hk : n - (b :: rest).length = k := by simp; omega
  have hk' : n - (b' :: rest').length = k' := by simp; omega
  rw [hlen, hk', ← Nat.mul_two, append_nil, append_nil] at hsecond
  rw [length_nil, Nat.zero_add, hk, nil_append, nil_append,
    replicate_append_replicate, ← Nat.mul_two] at hfirst
  rw [setParts, readInteger_integer hzero h]
  dsimp only
  rw [if_neg (by simp; omega), Nat.zero_add, Nat.mul_one, hk, hfirst, setParts,
    readInteger_integer hzero' h']
  dsimp only
  rw [if_neg (by simp; omega), hsecond, setParts]

theorem ecdsa_roundTrip {n : ℕ} (hpos : 0 < n) (hn : n ≤ 30000) {raw : Bytes}
    (hraw : raw.length = 2 * n) :
    (∀ steps, 3 ≤ steps → ecdsaDerToRawWithin steps (ecdsaRawToDer raw) n = some (some raw)) ∧
      DerSignature (octetsValue (raw.take n)) (octetsValue (raw.drop n)) (ecdsaRawToDer raw) := by
  have htake : (raw.take n).length = n := length_take_of_le (by omega)
  have hdrop : (raw.drop n).length = n := by rw [length_drop]; omega
  have hne : raw.take n ≠ [] := ne_nil_of_length_pos (by omega)
  have hne' : raw.drop n ≠ [] := ne_nil_of_length_pos (by omega)
  have hint := derInteger_integer hne (by omega)
  have hint' := derInteger_integer hne' (by omega)
  obtain ⟨k, b, rest, hhalf, hstrip, hzero⟩ := stripLeadingZeros_spec hne
  obtain ⟨k', b', rest', hhalf', hstrip', hzero'⟩ := stripLeadingZeros_spec hne'
  have hk := congrArg List.length hhalf
  have hk' := congrArg List.length hhalf'
  simp only [length_append, length_replicate, length_cons] at hk hk'
  have hlen := length_integerContent_le b rest
  have hlen' := length_integerContent_le b' rest'
  rw [hstrip, integer_cons] at hint
  rw [hstrip', integer_cons] at hint'
  obtain ⟨items, hdef⟩ : ∃ items : List (UInt8 × Bytes),
      items = [(0x02, integerContent b rest), (0x02, integerContent b' rest')] := ⟨_, rfl⟩
  have hitems : tlvs items = tlv 0x02 (integerContent b rest) ++ tlv 0x02 (integerContent b' rest') := by
    simp [tlvs, hdef]
  have hder : ecdsaRawToDer raw = tlv 0x30 (tlvs items) := by
    rw [ecdsaRawToDer, hraw, Nat.mul_div_cancel_left n (by decide)]
    rw [hstrip, hstrip', integer_cons, integer_cons, seq, hitems]
  have hshort : (tlvs items).length < 65536 := by
    have henc := length_encLen (integerContent b rest).length
    have henc' := length_encLen (integerContent b' rest').length
    rw [hitems, length_append, length_tlv, length_tlv]
    split_ifs at henc henc' <;> omega
  refine ⟨fun steps hsteps => ?_, ?_⟩
  · obtain ⟨node, nodes, hread, hcarries, hend, hchildren, hall⟩ :=
      @childrenWithin_tlvs 0x30 items [] rfl (by simp [hdef]; omega) hshort steps (by simp [hdef]; omega)
    rw [append_nil] at hread
    rw [hdef] at hall
    cases hall with
    | cons hpart hall => cases hall with
      | cons hpart' hall => cases hall with
        | nil =>
          rw [ecdsaDerToRawWithin, tryDerToRaw, hder, hread]
          dsimp only
          have htag : node.tag = some 0x30 := hcarries.1
          rw [expectTag_of_tag htag]
          dsimp only
          rw [hchildren]
          dsimp only
          have hset := @setParts_halves n k k' b b' rest rest' hzero hzero' (by omega) (by omega) _ _
            hpart hpart'
          rw [if_neg (by simp [hend]), hset, ← hhalf, ← hhalf', take_append_drop]
          rfl
  · refine ⟨_, _, hint, hint', ?_⟩
    rw [hder, ← hitems]
    exact derNode_tlv hshort

/-- **The two forms of an ECDSA signature**: the way to DER and back gives the signature again, and
its DER is the minimal one with the values of the halves. -/
theorem ecdsaDerToRaw_ecdsaRawToDer {n : ℕ} (hn : n = 32 ∨ n = 48) {raw : Bytes}
    (hraw : raw.length = 2 * n) :
    (∀ steps, 3 ≤ steps → ecdsaDerToRawWithin steps (ecdsaRawToDer raw) n = some (some raw)) ∧
      DerSignature (octetsValue (raw.take n)) (octetsValue (raw.drop n)) (ecdsaRawToDer raw) :=
  ecdsa_roundTrip (by omega) (by omega) hraw

theorem zero_signature_roundTrip :
    (∀ steps, 3 ≤ steps → ecdsaDerToRawWithin steps (ecdsaRawToDer (List.replicate 64 0)) 32 =
        some (some (List.replicate 64 0))) ∧
      DerSignature (octetsValue ((List.replicate 64 0).take 32))
        (octetsValue ((List.replicate 64 0).drop 32)) (ecdsaRawToDer (List.replicate 64 0)) :=
  ecdsaDerToRaw_ecdsaRawToDer (.inl rfl) length_replicate

end TurboPanel.Tls
