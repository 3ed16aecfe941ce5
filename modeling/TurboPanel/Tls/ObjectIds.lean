import TurboPanel.Tls.Asn1

/-!
# Reading object identifiers

`readOid` of `src/lib/tls/asn1.ts`, and `readOidBytes` of `self-signed.ts`, which is its loop
without the checks. The first octet is split by forty whether or not it ends the first
sub-identifier, and what follows is put together with 32-bit signed shifts. So the text keeps the
first octet and, of the numbers after it, the residues modulo `2 ^ 32`
(`readOid_distinguishes_iff`): identifiers with arcs that are congruent are read as one.
-/

namespace TurboPanel.Tls

open Js List

/-! ## The reader -/

/-- One round of the loop: `parts` and `value`. -/
def oidStep (state : List ℤ × ℤ) (byte : UInt8) : List ℤ × ℤ :=
  let value := or32 (shl state.2 7) (and32 byte.toNat 0x7f)
  if and32 byte.toNat 0x80 = 0 then (state.1 ++ [value], 0) else (state.1, value)

/-- The parts of the identifier with this content. -/
def oidParts (first : UInt8) (rest : Bytes) : List ℤ :=
  (rest.foldl oidStep ([(first.toNat / 40 : ℕ), (first.toNat % 40 : ℕ)], 0)).1

def joinParts (parts : List ℤ) : Text := ['.'].intercalate (parts.map intText)

def readOid (node : Asn1Node) : Except Asn1Error Text := do
  expectTag node 0x06 "OBJECT IDENTIFIER"
  match content node with
  | [] => .error ⟨"empty OID"⟩
  | first :: rest => pure (joinParts (oidParts first rest))

/-- `readOidBytes` of the self-signed side. -/
def readOidBytes (node : Asn1Node) : Text :=
  match content node with
  | [] => []
  | first :: rest => joinParts (oidParts first rest)

/-! ## What the content means -/

/-- The octets of one sub-identifier, minimally encoded in base 128. -/
structure SubIdentifier (octets : Bytes) : Prop where
  ends : ∃ init last, octets = init ++ [last] ∧ (∀ b ∈ init, 128 ≤ b.toNat) ∧ last.toNat < 128
  minimal : octets.head? ≠ some 0x80

/-- The content of a DER object identifier. -/
def ValidContent (content : Bytes) : Prop :=
  ∃ subs : List Bytes, subs ≠ [] ∧ (∀ sub ∈ subs, SubIdentifier sub) ∧ content = subs.flatten

/-- The numbers that octets write in base 128, each up to an octet without the high bit; `acc` is
what has been read of the first. -/
def numbersFrom (acc : ℕ) : Bytes → List ℕ
  | [] => []
  | b :: bs =>
    if b.toNat < 128 then (acc * 128 + b.toNat % 128) :: numbersFrom 0 bs
    else numbersFrom (acc * 128 + b.toNat % 128) bs

/-- The numbers behind the first octet, modulo `2 ^ 32`. -/
def residues (rest : Bytes) : List ℕ := (numbersFrom 0 rest).map (· % 4294967296)

/-! ## What the text keeps -/

/-- A number as the reader has it: the signed value of its low 32 bits. -/
def int32 (n : ℕ) : ℤ := (n : ℤ).bmod 4294967296

theorem bmod_natCast_eq_iff {m n k : ℕ} : (m : ℤ).bmod k = (n : ℤ).bmod k ↔ m % k = n % k := by
  constructor
  · intro h
    have hmod := congrArg (· % (k : ℤ)) h
    simp only [Int.bmod_emod] at hmod
    exact_mod_cast hmod
  · intro h
    have hmod : (m : ℤ) % k = (n : ℤ) % k := by exact_mod_cast h
    rw [← Int.emod_bmod, hmod, Int.emod_bmod]

theorem int32_eq_iff {m n : ℕ} : int32 m = int32 n ↔ m % 4294967296 = n % 4294967296 :=
  bmod_natCast_eq_iff

theorem int32_zero : int32 0 = 0 := by
  unfold int32
  exact Int.zero_bmod

theorem bmod_shift (acc b base m : ℕ) :
    ((acc : ℤ).bmod m * base + b : ℤ).bmod m = ((acc * base + b : ℕ) : ℤ).bmod m := by
  rw [← Int.bmod_add_bmod, Int.bmod_mul_bmod, Int.bmod_add_bmod]
  push_cast
  rfl

theorem or32_int32 (acc : ℕ) (b : UInt8) :
    or32 (shl (int32 acc) 7) (b.toNat % 128 : ℕ) = int32 (acc * 128 + b.toNat % 128) := by
  have hor := @or32_shl (int32 acc) 7 (b.toNat % 128) (by decide) (Nat.mod_lt _ (by decide))
  have hshift := bmod_shift acc (b.toNat % 128) 128 4294967296
  unfold int32 at hor ⊢
  rw [hor, ← hshift, show ((128 : ℕ) : ℤ) = 2 ^ 7 by norm_num,
    show (4294967296 : ℕ) = 2 ^ 32 by norm_num]

theorem oidStep_int32 (parts : List ℤ) (acc : ℕ) (b : UInt8) : oidStep (parts, int32 acc) b =
    if b.toNat < 128 then (parts ++ [int32 (acc * 128 + b.toNat % 128)], int32 0)
    else (parts, int32 (acc * 128 + b.toNat % 128)) := by
  simp only [oidStep, and32_low, and32_high, or32_int32, int32_zero]

theorem foldl_oidStep (bs : Bytes) : ∀ (parts : List ℤ) (acc : ℕ),
    (bs.foldl oidStep (parts, int32 acc)).1 = parts ++ (numbersFrom acc bs).map int32 := by
  induction bs with
  | nil => exact fun parts acc => (append_nil parts).symm
  | cons b bs ih =>
    intro parts acc
    rw [foldl_cons, oidStep_int32, numbersFrom]
    split
    · rw [ih, map_cons, append_assoc, singleton_append]
    · exact ih _ _

theorem oidParts_eq (first : UInt8) (rest : Bytes) : oidParts first rest =
    ((first.toNat / 40 : ℕ) : ℤ) :: ((first.toNat % 40 : ℕ) : ℤ) ::
      (numbersFrom 0 rest).map int32 := by
  rw [oidParts, ← int32_zero, foldl_oidStep]
  rfl

theorem joinParts_inj {parts parts' : List ℤ} (hne : parts ≠ []) (hne' : parts' ≠ [])
    (h : joinParts parts = joinParts parts') : parts = parts' := by
  have hdot : ∀ {ps : List ℤ}, ∀ l ∈ ps.map intText, '.' ∉ l := by
    intro ps l hl hmem
    obtain ⟨n, -, rfl⟩ := mem_map.1 hl
    rcases mem_intText hmem with hc | hc
    · cases hc
    · cases hc
  have hsplit := congrArg (List.splitOn '.') h
  unfold joinParts at hsplit
  rw [splitOn_intercalate '.' hdot (by simpa using hne),
    splitOn_intercalate '.' hdot (by simpa using hne')] at hsplit
  exact map_injective_iff.2 intText_injective hsplit

theorem map_int32_eq_iff (ms ns : List ℕ) :
    ms.map int32 = ns.map int32 ↔ ms.map (· % 4294967296) = ns.map (· % 4294967296) := by
  induction ms generalizing ns with
  | nil => simp
  | cons m ms ih =>
    cases ns with
    | nil => simp
    | cons n ns => simp only [map_cons, List.cons.injEq, int32_eq_iff, ih]

theorem oidParts_eq_iff {first first' : UInt8} {rest rest' : Bytes} :
    oidParts first rest = oidParts first' rest' ↔
      first = first' ∧ residues rest = residues rest' := by
  rw [oidParts_eq, oidParts_eq, List.cons.injEq, List.cons.injEq, map_int32_eq_iff]
  constructor
  · rintro ⟨hdiv, hmod, hrest⟩
    refine ⟨UInt8.toNat_inj.1 ?_, hrest⟩
    omega
  · rintro ⟨rfl, hrest⟩
    exact ⟨rfl, rfl, hrest⟩

theorem readOid_eq {node : Asn1Node} {first : UInt8} {rest : Bytes} (htag : node.tag = some 0x06)
    (hcontent : content node = first :: rest) :
    readOid node = .ok (joinParts (oidParts first rest)) := by
  rw [readOid, expectTag, if_pos htag, hcontent]
  rfl

theorem readOid_eq_readOidBytes {node : Asn1Node} (htag : node.tag = some 0x06)
    (hcontent : content node ≠ []) : readOid node = .ok (readOidBytes node) := by
  obtain ⟨first, rest, h⟩ := exists_cons_of_ne_nil hcontent
  rw [readOid_eq htag h, readOidBytes, h]

theorem SubIdentifier.ne_nil {sub : Bytes} (h : SubIdentifier sub) : sub ≠ [] := by
  obtain ⟨init, last, rfl, -⟩ := h.ends
  exact concat_ne_nil last init

theorem ValidContent.ne_nil {content : Bytes} (h : ValidContent content) : content ≠ [] := by
  obtain ⟨subs, hne, hsubs, rfl⟩ := h
  obtain ⟨sub, rest, rfl⟩ := exists_cons_of_ne_nil hne
  rw [flatten_cons]
  exact append_ne_nil_of_left_ne_nil (hsubs sub mem_cons_self).ne_nil _

theorem readOid_eq_iff {node node' : Asn1Node} (htag : node.tag = some 0x06)
    (htag' : node'.tag = some 0x06) (hne : content node ≠ []) (hne' : content node' ≠ []) :
    readOid node = readOid node' ↔ (content node).head? = (content node').head? ∧
      residues (content node).tail = residues (content node').tail := by
  obtain ⟨first, rest, h⟩ := exists_cons_of_ne_nil hne
  obtain ⟨first', rest', h'⟩ := exists_cons_of_ne_nil hne'
  have hinj : joinParts (oidParts first rest) = joinParts (oidParts first' rest') ↔
      oidParts first rest = oidParts first' rest' :=
    ⟨joinParts_inj (by simp [oidParts_eq]) (by simp [oidParts_eq]), congrArg _⟩
  rw [readOid_eq htag h, readOid_eq htag' h', h, h', head?_cons, head?_cons,
    tail_cons, tail_cons, Except.ok.injEq, hinj, oidParts_eq_iff, Option.some.injEq]

/-- **What the text tells apart**: valid contents with different first octets, and those whose
numbers behind it differ modulo `2 ^ 32`. -/
theorem readOid_distinguishes_iff {node node' : Asn1Node} (htag : node.tag = some 0x06)
    (htag' : node'.tag = some 0x06) (hvalid : ValidContent (content node))
    (hvalid' : ValidContent (content node')) :
    (∃ text text', readOid node = .ok text ∧ readOid node' = .ok text' ∧ text ≠ text') ↔
      (content node).head? ≠ (content node').head? ∨
        residues (content node).tail ≠ residues (content node').tail := by
  have hread := readOid_eq_readOidBytes htag hvalid.ne_nil
  have hread' := readOid_eq_readOidBytes htag' hvalid'.ne_nil
  rw [← not_and_or, ← readOid_eq_iff htag htag' hvalid.ne_nil hvalid'.ne_nil]
  constructor
  · rintro ⟨text, text', h, h', hne⟩ heq
    rw [h, h', Except.ok.injEq] at heq
    exact hne heq
  · intro hne
    refine ⟨_, _, hread, hread', fun heq => hne ?_⟩
    rw [hread, hread', heq]

/-- An object identifier node over its content. -/
def oidNode (content : Bytes) : Asn1Node :=
  { tag := some 0x06
    headerLength := 0
    contentOffset := 0
    contentLength := some content.length
    endOffset := some content.length
    bytes := content }

theorem content_oidNode (bytes : Bytes) : content (oidNode bytes) = bytes := by
  rw [content, oidNode, subarray]
  dsimp only [toNumber, Option.getD_some]
  rw [if_neg (lt_irrefl 0), if_neg (Int.not_lt.2 (Int.natCast_nonneg _)), Int.toNat_natCast,
    take_length]
  rfl

theorem subIdentifier_singleton {b : UInt8} (hb : b.toNat < 128) : SubIdentifier [b] := by
  refine ⟨⟨[], b, rfl, by simp, hb⟩, ?_⟩
  rintro h
  cases h
  exact absurd hb (by decide)

theorem validContent_subjectAltName : ValidContent [0x55, 0x1d, 0x11] :=
  ⟨[[0x55], [0x1d], [0x11]], by simp, by simp [subIdentifier_singleton], rfl⟩

set_option maxRecDepth 4096 in
theorem validContent_likeness : ValidContent [0x55, 0x1d, 0x90, 0x80, 0x80, 0x80, 0x11] := by
  have hlong : SubIdentifier [0x90, 0x80, 0x80, 0x80, 0x11] :=
    ⟨⟨[0x90, 0x80, 0x80, 0x80], 0x11, rfl, by decide, by decide⟩, by decide⟩
  exact ⟨[[0x55], [0x1d], [0x90, 0x80, 0x80, 0x80, 0x11]], by simp,
    by simp [subIdentifier_singleton, hlong], rfl⟩

theorem subjectAltName_distinguished : ∃ text text',
    readOid (oidNode [0x55, 0x1d, 0x11]) = .ok text ∧
      readOid (oidNode [0x55, 0x1d, 0x13]) = .ok text' ∧ text ≠ text' := by
  have hvalid : ValidContent [0x55, 0x1d, 0x13] :=
    ⟨[[0x55], [0x1d], [0x13]], by simp, by simp [subIdentifier_singleton], rfl⟩
  refine (readOid_distinguishes_iff rfl rfl ?_ ?_).2 (.inr ?_)
  · rw [content_oidNode]
    exact validContent_subjectAltName
  · rw [content_oidNode]
    exact hvalid
  · rw [content_oidNode, content_oidNode]
    decide

theorem likeness_read_as_subjectAltName :
    ValidContent [0x55, 0x1d, 0x11] ∧
      ValidContent [0x55, 0x1d, 0x90, 0x80, 0x80, 0x80, 0x11] ∧
      readOid (oidNode [0x55, 0x1d, 0x11]) = .ok "2.5.29.17".toList ∧
      readOid (oidNode [0x55, 0x1d, 0x90, 0x80, 0x80, 0x80, 0x11]) = .ok "2.5.29.17".toList := by
  refine ⟨validContent_subjectAltName, validContent_likeness, by decide, ?_⟩
  rw [readOid_eq rfl (content_oidNode (0x55 :: [0x1d, 0x90, 0x80, 0x80, 0x80, 0x11]))]
  decide

end TurboPanel.Tls
