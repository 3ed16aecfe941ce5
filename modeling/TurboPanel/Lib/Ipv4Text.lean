import TurboPanel.Lib.IpAddress

/-!
# IPv4 addresses are read as they are printed

The text of an IPv4 address has one spelling: `isIpv4Address_iff` says that the texts the validator
accepts are exactly those `bigIntToIpv4` prints. On them the reader inverts the printer
(`ipToBigInt_bigIntToIpv4`), white space around the address changes nothing, and the text of a
network with its prefix length is read back as that block (`parseCidr_print`). A block that is
read at all is aligned and fits its address space (`isIpv4Block_of_parseCidr`).
-/

namespace TurboPanel.Ip

open Js List

/-! ## One octet -/

variable {a b : ℕ}

theorem toDigits_two (ha : 0 < a) (ha' : a < 10) (hb : b < 10) :
    Nat.toDigits 10 (10 * a + b) = [Nat.digitChar a, Nat.digitChar b] := by
  rw [← Nat.toDigits_append_toDigits (by decide) ha hb, Nat.toDigits_of_lt_base ha',
    Nat.toDigits_of_lt_base hb]
  rfl

theorem toDigits_three {c : ℕ} (ha : 0 < a) (ha' : a < 10) (hb : b < 10) (hc : c < 10) :
    Nat.toDigits 10 (10 * (10 * a + b) + c) = [Nat.digitChar a, Nat.digitChar b, Nat.digitChar c] := by
  rw [← Nat.toDigits_append_toDigits (by decide) (by omega) hc, toDigits_two ha ha' hb,
    Nat.toDigits_of_lt_base hc]
  rfl

theorem digitValue_pos_of_ne_zero {c : Char} (h : isDigitOf 10 c = true) (hne : c ≠ '0') :
    0 < digitValue c := by
  obtain ⟨hc, -⟩ := eq_digitChar_of_isDigit h
  rcases Nat.eq_zero_or_pos (digitValue c) with h0 | h0
  · rw [h0] at hc
    exact absurd hc hne
  · exact h0

set_option maxRecDepth 4000 in
theorem isIpv4Octet_toDigits : ∀ n < 256, isIpv4Octet (Nat.toDigits 10 n) = true := by decide

variable {l : Text} {octets : List ℕ} {c : ParsedCidr} (v : ℕ)

theorem isIpv4Octet_iff : isIpv4Octet l = true ↔ ∃ n < 256, l = Nat.toDigits 10 n := by
  refine ⟨fun h => ?_, fun ⟨n, hn, e⟩ => e ▸ isIpv4Octet_toDigits n hn⟩
  match l, h with
  | [a], h =>
    obtain ⟨ha, hlt⟩ := eq_digitChar_of_isDigit (c := a) h
    exact ⟨digitValue a, by omega, by rw [Nat.toDigits_of_lt_base hlt, ← ha]⟩
  | [a, b], h =>
    simp only [isIpv4Octet, Bool.and_eq_true, bne_iff_ne] at h
    obtain ⟨⟨h₁, h₂⟩, h₃⟩ := h
    obtain ⟨ha, hlt⟩ := eq_digitChar_of_isDigit h₁
    obtain ⟨hb, hlt'⟩ := eq_digitChar_of_isDigit h₃
    refine ⟨10 * digitValue a + digitValue b, by omega, ?_⟩
    rw [toDigits_two (digitValue_pos_of_ne_zero h₁ h₂) hlt hlt', ← ha, ← hb]
  | [a, b, c], h =>
    simp only [isIpv4Octet, Bool.or_eq_true, Bool.and_eq_true, beq_iff_eq] at h
    have key : isDigitOf 10 a = true ∧ isDigitOf 10 b = true ∧ isDigitOf 10 c = true ∧
        0 < digitValue a ∧ 10 * (10 * digitValue a + digitValue b) + digitValue c < 256 := by
      have v1 : digitValue '1' = 1 := rfl
      have v2 : digitValue '2' = 2 := rfl
      have v5 : digitValue '5' = 5 := rfl
      rcases h with (⟨⟨rfl, rfl⟩, hc⟩ | ⟨⟨rfl, hb⟩, hc⟩) | ⟨⟨rfl, hb⟩, hc⟩
      · have : digitValue c < 6 := by simpa [isDigitOf] using hc
        exact ⟨rfl, rfl, isDigitOf_mono (by decide) hc, by omega, by omega⟩
      · have : digitValue b < 5 := by simpa [isDigitOf] using hb
        have : digitValue c < 10 := by simpa [isDigitOf] using hc
        exact ⟨rfl, isDigitOf_mono (by decide) hb, hc, by omega, by omega⟩
      · have : digitValue b < 10 := by simpa [isDigitOf] using hb
        have : digitValue c < 10 := by simpa [isDigitOf] using hc
        exact ⟨rfl, hb, hc, by omega, by omega⟩
    obtain ⟨h₁, h₂, h₃, hpos, hlt⟩ := key
    obtain ⟨ha, hla⟩ := eq_digitChar_of_isDigit h₁
    obtain ⟨hb, hlb⟩ := eq_digitChar_of_isDigit h₂
    obtain ⟨hc, hlc⟩ := eq_digitChar_of_isDigit h₃
    exact ⟨_, hlt, by rw [toDigits_three hpos hla hlb hlc, ← ha, ← hb, ← hc]⟩

/-! ## Four octets -/

/-- The dotted text of four octets. -/
def dotted (octets : List ℕ) : Text := ['.'].intercalate (octets.map (Nat.toDigits 10))

theorem splitOn_dotted (h : octets ≠ []) :
    (dotted octets).splitOn '.' = octets.map (Nat.toDigits 10) := by
  refine splitOn_intercalate '.' ?_ (by simpa using h)
  intro l hl
  obtain ⟨n, -, rfl⟩ := mem_map.1 hl
  exact not_mem_decimal (by decide)

theorem mem_dotted {c : Char} (h : c ∈ dotted octets) :
    c = '.' ∨ isDigitOf 10 c = true := by
  rcases mem_intercalate_singleton h with rfl | ⟨l, hl, hc⟩
  · exact .inl rfl
  · obtain ⟨n, -, rfl⟩ := mem_map.1 hl
    exact .inr (isDigitOf_of_mem_decimal hc)

theorem not_mem_dotted {c : Char} (hc : c ≠ '.') (hd : isDigitOf 10 c = false) :
    c ∉ dotted octets := by
  intro h
  rcases mem_dotted h with h | h
  · exact hc h
  · rw [hd] at h
    exact Bool.noConfusion h

theorem isSpace_of_mem_dotted {c : Char} (h : c ∈ dotted octets) :
    isSpace c = false := by
  rcases mem_dotted h with rfl | h
  · decide
  · exact not_isSpace_of_isDigitOf (by decide) h

theorem trim_dotted (octets : List ℕ) : trim (dotted octets) = dotted octets :=
  trim_eq_self_of_forall fun _ => isSpace_of_mem_dotted

theorem isIpv4Address_dotted {c d : ℕ} (ha : a < 256) (hb : b < 256) (hc : c < 256)
    (hd : d < 256) : isIpv4Address (dotted [a, b, c, d]) = true := by
  rw [isIpv4Address, splitOn_dotted (by simp)]
  simp [isIpv4Octet_toDigits _ ha, isIpv4Octet_toDigits _ hb, isIpv4Octet_toDigits _ hc,
    isIpv4Octet_toDigits _ hd]

theorem isIpv4Address_iff_dotted : isIpv4Address l = true ↔
    ∃ a < 256, ∃ b < 256, ∃ c < 256, ∃ d < 256, l = dotted [a, b, c, d] := by
  constructor
  · intro h
    simp only [isIpv4Address, Bool.and_eq_true, beq_iff_eq, all_eq_true] at h
    obtain ⟨hlen, hall⟩ := h
    obtain ⟨w, x, y, z, hs⟩ := length_eq_four.1 hlen
    rw [hs] at hall
    obtain ⟨a, ha, rfl⟩ := isIpv4Octet_iff.1 (hall w (by simp))
    obtain ⟨b, hb, rfl⟩ := isIpv4Octet_iff.1 (hall x (by simp))
    obtain ⟨c, hc, rfl⟩ := isIpv4Octet_iff.1 (hall y (by simp))
    obtain ⟨d, hd, rfl⟩ := isIpv4Octet_iff.1 (hall z (by simp))
    exact ⟨a, ha, b, hb, c, hc, d, hd, by rw [← @List.intercalate_splitOn _ l _ _ '.', hs]; rfl⟩
  · rintro ⟨a, ha, b, hb, c, hc, d, hd, rfl⟩
    exact isIpv4Address_dotted ha hb hc hd

/-! ## The number of an address -/

/-- The octets of a number, the highest first. -/
def octetsOf (v : ℕ) : List ℕ := [v / 2 ^ 24 % 256, v / 2 ^ 16 % 256, v / 2 ^ 8 % 256, v % 256]

theorem octetsOf_mod : octetsOf (v % 2 ^ 32) = octetsOf v := by
  simp only [octetsOf, List.cons.injEq, and_true]
  omega

theorem octetsOf_eq {c d : ℕ} (ha : a < 256) (hb : b < 256) (hc : c < 256) (hd : d < 256) :
    octetsOf (((a * 256 + b) * 256 + c) * 256 + d) = [a, b, c, d] := by
  simp only [octetsOf, List.cons.injEq, and_true]
  omega

theorem bigIntToIpv4_eq : bigIntToIpv4 v = dotted (octetsOf v) := by
  have hmask : v &&& 0xffffffff = v % 2 ^ 32 := Nat.and_two_pow_sub_one_eq_mod v 32
  have hbyte : ∀ n : ℕ, n &&& 0xff = n % 256 := fun n => Nat.and_two_pow_sub_one_eq_mod n 8
  rw [bigIntToIpv4, hmask]
  simp only [hbyte, Nat.shiftRight_eq_div_pow]
  change dotted (octetsOf (v % 2 ^ 32)) = _
  rw [octetsOf_mod]

theorem isIpv4Address_bigIntToIpv4 : isIpv4Address (bigIntToIpv4 v) = true := by
  rw [bigIntToIpv4_eq]
  exact isIpv4Address_dotted (Nat.mod_lt _ (by decide)) (Nat.mod_lt _ (by decide))
    (Nat.mod_lt _ (by decide)) (Nat.mod_lt _ (by decide))

theorem bigIntToIpv4_ne_nil : bigIntToIpv4 v ≠ [] := by
  intro h
  have hvalid := isIpv4Address_bigIntToIpv4 v
  rw [h] at hvalid
  cases hvalid

/-- **An IPv4 address has one spelling**, the printed one. -/
theorem isIpv4Address_iff :
    isIpv4Address l = true ↔ ∃ v < 2 ^ 32, l = bigIntToIpv4 v := by
  constructor
  · intro h
    obtain ⟨a, ha, b, hb, c, hc, d, hd, rfl⟩ := isIpv4Address_iff_dotted.1 h
    refine ⟨((a * 256 + b) * 256 + c) * 256 + d, by omega, ?_⟩
    rw [bigIntToIpv4_eq, octetsOf_eq ha hb hc hd]
  · rintro ⟨v, -, rfl⟩
    exact isIpv4Address_bigIntToIpv4 v

theorem parseIpVersion_of_ipv4 (h : isIpv4Address (trim l) = true) :
    parseIpVersion l = some .v4 := by
  have hne : (trim l).isEmpty = false := by
    cases ht : trim l with
    | nil => rw [ht] at h; cases h
    | cons c cs => rfl
  simp [parseIpVersion, hne, h]

theorem ipv4_of_parseIpVersion (h : parseIpVersion l = some .v4) :
    isIpv4Address (trim l) = true := by
  simp only [parseIpVersion] at h
  split at h
  · cases h
  · split at h
    · assumption
    · split at h <;> cases h

variable {w r : Text}

section

variable (hw : ∀ c ∈ w, isSpace c = true) (hr : ∀ c ∈ r, isSpace c = true)
include hw hr

theorem parseInt_decimal (n : ℕ) : parseInt 10 (w ++ Nat.toDigits 10 n ++ r) = some (n : ℤ) := by
  rw [parseInt_padded (by decide) hw Nat.toDigits_ne_nil
    (isDigitOf_of_mem_toDigits (by decide) (by decide))
    (fun c hc => hr c (mem_of_mem_head? hc)), ofDigits_toDigits (by decide) (by decide)]

theorem readGroups_padded (a b c d : ℕ) :
    readGroups 10 8 [w ++ Nat.toDigits 10 a, Nat.toDigits 10 b, Nat.toDigits 10 c,
        Nat.toDigits 10 d ++ r] = some (((a * 256 + b) * 256 + c) * 256 + d) := by
  have h₁ := parseInt_decimal hw (r := []) (by simp) a
  have h₂ := parseInt_decimal (w := []) (r := []) (by simp) (by simp) b
  have h₃ := parseInt_decimal (w := []) (r := []) (by simp) (by simp) c
  have h₄ := parseInt_decimal (w := []) (by simp) hr d
  simp only [append_nil, nil_append] at h₁ h₂ h₃ h₄
  simp [readGroups, h₁, h₂, h₃, h₄, Nat.shiftLeft_eq]

theorem splitOn_padded_dotted (a b c d : ℕ) : (w ++ dotted [a, b, c, d] ++ r).splitOn '.' =
      [w ++ Nat.toDigits 10 a, Nat.toDigits 10 b, Nat.toDigits 10 c, Nat.toDigits 10 d ++ r] := by
  have hns : ∀ l : Text, (∀ c ∈ l, isSpace c = true) → '.' ∉ l :=
    fun l hl hmem => absurd (hl '.' hmem) (by decide)
  have hnd : ∀ n, '.' ∉ Nat.toDigits 10 n := fun n => not_mem_decimal (by decide)
  have e : w ++ dotted [a, b, c, d] ++ r = ['.'].intercalate
      [w ++ Nat.toDigits 10 a, Nat.toDigits 10 b, Nat.toDigits 10 c, Nat.toDigits 10 d ++ r] := by
    simp [dotted, List.intercalate]
  rw [e]
  refine splitOn_intercalate '.' ?_ (by simp)
  simp [hns w hw, hns r hr, hnd]

end

theorem ipv4_reading {v : ℕ} (hv : v < 2 ^ 32) (h : trim l = bigIntToIpv4 v) :
    (l.splitOn '.').length = 4 ∧ readGroups 10 8 (l.splitOn '.') = some v := by
  obtain ⟨w, r, hw, hr, hl⟩ := exists_eq_append_trim l
  rw [h, bigIntToIpv4_eq] at hl
  rw [hl, octetsOf, splitOn_padded_dotted hw hr, readGroups_padded hw hr]
  refine ⟨rfl, congrArg some ?_⟩
  omega

theorem cutLastSlash_eq_some {t a b : Text} :
    cutLastSlash t = some (a, b) ↔ t = a ++ '/' :: b ∧ a ≠ [] ∧ '/' ∉ b := by
  constructor
  · intro h
    simp only [cutLastSlash] at h
    split at h
    · cases h
    · cases h
    · rename_i slash hne hslash
      simp only [Option.some.injEq, Prod.mk.injEq] at h
      obtain ⟨rfl, rfl⟩ := h
      obtain ⟨hsplit, hmem⟩ := lastIndexOf_eq_some hslash
      refine ⟨hsplit, fun hnil => hne ?_, hmem⟩
      rcases take_eq_nil_iff.1 hnil with h0 | h0
      · exact h0
      · rw [h0] at hsplit
        simp at hsplit
  · rintro ⟨rfl, hne, hmem⟩
    have hlen : 0 < a.length := length_pos_of_ne_nil hne
    simp only [cutLastSlash, lastIndexOf_append_cons a hmem]
    split
    · rename_i h; cases h
    · rename_i h
      rw [Option.some.injEq] at h
      omega
    · rename_i slash _ h
      obtain rfl : a.length = slash := by simpa using h
      rw [take_left, ← drop_drop, drop_left]
      rfl

theorem stripInetPrefixSuffix_of_not_mem (h : '/' ∉ trim l) :
    stripInetPrefixSuffix l = trim l := by
  simp [stripInetPrefixSuffix, cutLastSlash, lastIndexOf_eq_none.2 h]

theorem stripInetPrefixSuffix_of_ipv4 (h : isIpv4Address (trim l) = true) :
    stripInetPrefixSuffix l = trim l := by
  refine stripInetPrefixSuffix_of_not_mem ?_
  obtain ⟨v, -, e⟩ := isIpv4Address_iff.1 h
  rw [e, bigIntToIpv4_eq]
  exact not_mem_dotted (by decide) (by decide)

theorem ipToBigInt_of_ipv4 {v : ℕ} (hv : v < 2 ^ 32) (h : trim (stripInetPrefixSuffix l) = bigIntToIpv4 v) :
    ipToBigInt? l = some v := by
  have hver : parseIpVersion (stripInetPrefixSuffix l) = some .v4 :=
    parseIpVersion_of_ipv4 (by rw [h]; exact isIpv4Address_bigIntToIpv4 v)
  obtain ⟨hlen, hread⟩ := ipv4_reading hv h
  rw [ipToBigInt?_v4 hver hlen, hread]

theorem trim_bigIntToIpv4 : trim (bigIntToIpv4 v) = bigIntToIpv4 v := by
  rw [bigIntToIpv4_eq, trim_dotted]

theorem stripInetPrefixSuffix_bigIntToIpv4 :
    stripInetPrefixSuffix (bigIntToIpv4 v) = bigIntToIpv4 v := by
  rw [stripInetPrefixSuffix_of_ipv4 (by rw [trim_bigIntToIpv4]; exact isIpv4Address_bigIntToIpv4 v),
    trim_bigIntToIpv4]

theorem parseIpVersion_bigIntToIpv4 : parseIpVersion (bigIntToIpv4 v) = some .v4 :=
  parseIpVersion_of_ipv4 (by rw [trim_bigIntToIpv4]; exact isIpv4Address_bigIntToIpv4 v)

/-- **The reader inverts the printer.** -/
theorem ipToBigInt_bigIntToIpv4 {v : ℕ} (hv : v < 2 ^ 32) :
    ipToBigInt? (bigIntToIpv4 v) = some v :=
  ipToBigInt_of_ipv4 hv (by rw [stripInetPrefixSuffix_bigIntToIpv4, trim_bigIntToIpv4])

theorem exists_of_parseIpVersion_v4 (h : parseIpVersion l = some .v4) :
    ∃ v < 2 ^ 32, trim l = bigIntToIpv4 v ∧ ipToBigInt? l = some v := by
  have h4 := ipv4_of_parseIpVersion h
  obtain ⟨v, hv, e⟩ := isIpv4Address_iff.1 h4
  exact ⟨v, hv, e, ipToBigInt_of_ipv4 hv (by rw [stripInetPrefixSuffix_of_ipv4 h4, trim_trim, e])⟩

/-! ## Blocks -/

theorem isDecimal_iff :
    isDecimal l = true ↔ l ≠ [] ∧ ∀ c ∈ l, isDigitOf 10 c = true := by
  simp [isDecimal]

theorem parsePrefix_eq_some {ver : IpAddressVersion} {n : ℕ} :
    parsePrefix l ver = some n ↔
      isDecimal l = true ∧ ofDigits 10 l = n ∧ n ≤ ver.bitWidth := by
  by_cases h : isDecimal l = true
  · obtain ⟨hne, hd⟩ := isDecimal_iff.1 h
    simp only [parsePrefix, h, if_true, parseInt_digits (by decide) hne hd, Option.bind_some,
      Option.ite_none_left_eq_some, Option.some.injEq, true_and, Int.toNat_natCast]
    omega
  · simp [parsePrefix, h]

theorem parseCidr_eq_some {s : Text} : parseCidr s = some c ↔
    ∃ address bits, trim s = address ++ '/' :: bits ∧ address ≠ [] ∧
      parseIpVersion address = some c.version ∧ isDecimal bits = true ∧
      ofDigits 10 bits = c.prefixLength ∧ c.prefixLength ≤ c.version.bitWidth ∧
      ∃ b, ipToBigInt? address = some b ∧ c.base = (b >>> c.hostBits) <<< c.hostBits := by
  constructor
  · intro h
    simp only [parseCidr] at h
    split at h
    · cases h
    · rename_i address bits hcut
      obtain ⟨hs, hne, -⟩ := cutLastSlash_eq_some.1 hcut
      split at h
      · cases h
      · simp only [Option.pure_def, Option.bind_eq_bind, Option.bind_eq_some_iff,
          Option.some.injEq] at h
        obtain ⟨version, hv, len, hp, b, hb, rfl⟩ := h
        obtain ⟨hdec, hval, hle⟩ := parsePrefix_eq_some.1 hp
        exact ⟨_, _, hs, hne, hv, hdec, hval, hle, b, hb, rfl⟩
  · rintro ⟨address, bits, hs, hne, hv, hdec, hval, hle, b, hb, hbase⟩
    obtain ⟨hbne, hbd⟩ := isDecimal_iff.1 hdec
    have hcut : cutLastSlash (trim s) = some (address, bits) :=
      cutLastSlash_eq_some.2 ⟨hs, hne, fun hmem => absurd (hbd '/' hmem) (by decide)⟩
    have hemp : bits.isEmpty = false := by simpa using hbne
    simp only [parseCidr, hcut, hemp, Bool.false_eq_true, if_false, hv,
      parsePrefix_eq_some.2 ⟨hdec, hval, hle⟩, hb, Option.bind_eq_bind, Option.bind_some,
      Option.pure_def, Option.some.injEq]
    rw [ParsedCidr.mk.injEq]
    exact ⟨rfl, hbase.symm, rfl⟩

theorem shiftRight_shiftLeft (n k : ℕ) : (n >>> k) <<< k = n / 2 ^ k * 2 ^ k := by
  rw [Nat.shiftLeft_eq, Nat.shiftRight_eq_div_pow]

/-- What is known of an IPv4 block that was read: the number of its address, and the bounds. -/
structure IsIpv4Block (c : ParsedCidr) : Prop where
  version_eq : c.version = .v4
  prefix_le : c.prefixLength ≤ 32
  aligned : 2 ^ c.hostBits ∣ c.base
  fits : c.base + 2 ^ c.hostBits ≤ 2 ^ 32

theorem IsIpv4Block.hostBits_eq (h : IsIpv4Block c) :
    c.hostBits = 32 - c.prefixLength := by
  rw [ParsedCidr.hostBits, h.version_eq]
  rfl

theorem aligned_fits {k w : ℕ} (hb : b < 2 ^ w) (hk : k ≤ w) : b / 2 ^ k * 2 ^ k + 2 ^ k ≤ 2 ^ w := by
  have hpow : 2 ^ w = 2 ^ (w - k) * 2 ^ k := by rw [← pow_add, Nat.sub_add_cancel hk]
  have hlt : b / 2 ^ k < 2 ^ (w - k) := by
    rw [Nat.div_lt_iff_lt_mul (by positivity), ← hpow]
    exact hb
  calc b / 2 ^ k * 2 ^ k + 2 ^ k = (b / 2 ^ k + 1) * 2 ^ k := by ring
    _ ≤ 2 ^ (w - k) * 2 ^ k := Nat.mul_le_mul_right _ hlt
    _ = 2 ^ w := hpow.symm

theorem isIpv4Block_of_parseCidr {s : Text} (h : parseCidr s = some c) (hv : c.version = .v4) : IsIpv4Block c := by
  obtain ⟨address, bits, -, -, hver, -, -, hle, b, hb, hbase⟩ := parseCidr_eq_some.1 h
  rw [hv] at hver hle
  obtain ⟨v, hv32, -, hread⟩ := exists_of_parseIpVersion_v4 hver
  obtain rfl : v = b := by rw [hread] at hb; exact Option.some.inj hb
  have hbits : c.hostBits ≤ 32 := by
    rw [ParsedCidr.hostBits, hv]
    exact Nat.sub_le _ _
  rw [shiftRight_shiftLeft] at hbase
  exact ⟨hv, hle, hbase ▸ Dvd.intro_left _ rfl, hbase ▸ aligned_fits hv32 hbits⟩

/-- **A printed block is read back.** -/
theorem parseCidr_print {v p : ℕ} (hv : v < 2 ^ 32) (hp : p ≤ 32) :
    parseCidr (bigIntToIpv4 v ++ '/' :: Nat.toDigits 10 p) =
      some { version := .v4, base := v / 2 ^ (32 - p) * 2 ^ (32 - p), prefixLength := p } := by
  have hdec : isDecimal (Nat.toDigits 10 p) = true :=
    isDecimal_iff.2 ⟨Nat.toDigits_ne_nil, fun c => isDigitOf_of_mem_decimal⟩
  refine parseCidr_eq_some.2 ⟨bigIntToIpv4 v, Nat.toDigits 10 p, ?_, bigIntToIpv4_ne_nil v,
    parseIpVersion_bigIntToIpv4 v, hdec, ofDigits_toDigits (by decide) (by decide) p, hp, v,
    ipToBigInt_bigIntToIpv4 hv, (shiftRight_shiftLeft _ _).symm⟩
  refine trim_eq_self_of_forall fun c hc => ?_
  rcases mem_append.1 hc with hc | hc
  · rw [bigIntToIpv4_eq] at hc
    exact isSpace_of_mem_dotted hc
  · rcases mem_cons.1 hc with rfl | hc
    · decide
    · exact not_isSpace_of_isDigitOf (by decide) (isDigitOf_of_mem_decimal hc)

end TurboPanel.Ip
