import TurboPanel.Lib.CidrSets
import TurboPanel.Lib.Ipv6Text

/-!
# CIDR predicates as statements about sets of addresses

The addresses of a CIDR are the texts that `addressInCidr` accepts for it. Overlap is a common
address, containment is inclusion, and both are decided on the blocks: every number of a block is
the number of an address, and blocks that meet are nested because they are aligned to their sizes.
`alignedNetworkCidr` writes a block in one way, so containment is a partial order up to it.
-/

namespace TurboPanel.Ip

open Option Js Blocks

/-- Normalize a host-or-network CIDR to the network address and the prefix length. -/
def alignedNetworkCidr (value : Text) : Option Text := (parseCidr value).map formatCidr

/-- The addresses of a CIDR. -/
def addresses (cidr : Text) : Set Text := {address | addressInCidr address cidr = true}

/-! ## Every number of a block is the number of an address -/

variable {s : Text} {c : ParsedCidr}

theorem prefixLength_le_of_parseCidr (h : parseCidr s = some c) :
    c.prefixLength ≤ c.version.bitWidth := by
  obtain ⟨_, _, _, _, _, _, _, hle, _⟩ := parseCidr_eq_some.1 h
  exact hle

theorem fits_of_parseCidr (h : parseCidr s = some c) :
    c.base + 2 ^ c.hostBits ≤ 2 ^ c.version.bitWidth := by
  obtain ⟨address, _, _, _, hver, _, _, _, b, hb, hbase⟩ := parseCidr_eq_some.1 h
  obtain ⟨n, hn, hread⟩ := exists_of_parseIpVersion hver
  obtain rfl : b = n := by rw [hb] at hread; exact Option.some.inj hread
  rw [hbase, shiftRight_shiftLeft]
  exact aligned_fits hn (Nat.sub_le _ _)

theorem lt_of_mem_numbers (h : parseCidr s = some c) {v : ℕ}
    (hv : v ∈ c.numbers) : v < 2 ^ c.version.bitWidth :=
  lt_of_lt_of_le hv.2 (fits_of_parseCidr h)

theorem stripInetPrefixSuffix_bigIntToIp (v : ℕ) (version : IpAddressVersion) :
    parseIpVersion (stripInetPrefixSuffix (bigIntToIp v version)) = some version := by
  rw [stripInetPrefixSuffix_of_parseIpVersion (parseIpVersion_bigIntToIp v version),
    parseIpVersion_trim, parseIpVersion_bigIntToIp]

theorem bigIntToIp_mem_addresses (h : parseCidr s = some c) {v : ℕ}
    (hv : v < 2 ^ c.version.bitWidth) : bigIntToIp v c.version ∈ addresses s ↔ v ∈ c.numbers := by
  change addressInCidr (bigIntToIp v c.version) s = true ↔ _
  rw [addressInCidr_iff h, ipToBigInt_bigIntToIp hv]
  simp [stripInetPrefixSuffix_bigIntToIp]

variable {a b : Text}

theorem nonempty_inter_addresses_iff {left right : ParsedCidr}
    (ha : parseCidr a = some left) (hb : parseCidr b = some right)
    (hver : left.version = right.version) :
    (addresses a ∩ addresses b).Nonempty ↔ ¬Disjoint left.numbers right.numbers := by
  rw [Set.not_disjoint_iff]
  constructor
  · rintro ⟨address, hl, hr⟩
    obtain ⟨-, v, hv, hmem⟩ := (addressInCidr_iff ha).1 hl
    obtain ⟨-, w, hw, hmem'⟩ := (addressInCidr_iff hb).1 hr
    obtain rfl : v = w := by rw [hv] at hw; exact Option.some.inj hw
    exact ⟨v, hmem, hmem'⟩
  · rintro ⟨v, hl, hr⟩
    refine ⟨bigIntToIp v left.version, ?_, ?_⟩
    · exact (bigIntToIp_mem_addresses ha (lt_of_mem_numbers ha hl)).2 hl
    · rw [hver]
      exact (bigIntToIp_mem_addresses hb (lt_of_mem_numbers hb hr)).2 hr

theorem addresses_subset_iff {outer inner : ParsedCidr} (ha : parseCidr a = some outer)
    (hb : parseCidr b = some inner) (hver : outer.version = inner.version) :
    addresses b ⊆ addresses a ↔ inner.numbers ⊆ outer.numbers := by
  constructor
  · intro h v hv
    have hlt := lt_of_mem_numbers hb hv
    have hmem := h ((bigIntToIp_mem_addresses hb hlt).2 hv)
    rw [← hver] at hmem hlt
    exact (bigIntToIp_mem_addresses ha hlt).1 hmem
  · intro h address hmem
    obtain ⟨hv, v, hread, hin⟩ := (addressInCidr_iff hb).1 hmem
    exact (addressInCidr_iff ha).2 ⟨hver ▸ hv, v, hread, h hin⟩

/-! ## Inclusion, prefixes and nesting -/

section Family

variable {a b : Text} {left right : ParsedCidr} (ha : parseCidr a = some left)
  (hb : parseCidr b = some right) (hver : left.version = right.version)

include ha hb hver

theorem hostBits_le_iff : right.hostBits ≤ left.hostBits ↔
    left.prefixLength ≤ right.prefixLength := by
  have hl := prefixLength_le_of_parseCidr ha
  have hr := prefixLength_le_of_parseCidr hb
  rw [ParsedCidr.hostBits, ParsedCidr.hostBits, hver]
  rw [hver] at hl
  omega

theorem prefixLength_le_of_subset (h : right.numbers ⊆ left.numbers) :
    left.prefixLength ≤ right.prefixLength := by
  rw [← hostBits_le_iff ha hb hver]
  have := size_le_of_subset (by positivity) h
  exact (Nat.pow_le_pow_iff_right (by omega)).1 this

theorem subset_of_not_disjoint_of_prefix (hle : left.prefixLength ≤ right.prefixLength)
    (h : ¬Disjoint left.numbers right.numbers) : right.numbers ⊆ left.numbers := by
  have hbits := (hostBits_le_iff ha hb hver).2 hle
  refine subset_of_not_disjoint (by positivity) (by positivity) (aligned_of_parseCidr hb)
    (aligned_of_parseCidr ha) (Nat.pow_dvd_pow 2 hbits) ?_
  rwa [disjoint_comm]

theorem eq_of_numbers_subset (h₁ : right.numbers ⊆ left.numbers)
    (h₂ : left.numbers ⊆ right.numbers) : left = right := by
  have hle := prefixLength_le_of_subset ha hb hver h₁
  have hle' := prefixLength_le_of_subset hb ha hver.symm h₂
  have hfirst := h₁ (show right.base ∈ _ from ⟨le_rfl, Nat.lt_add_of_pos_right (by positivity)⟩)
  have hfirst' := h₂ (show left.base ∈ _ from ⟨le_rfl, Nat.lt_add_of_pos_right (by positivity)⟩)
  rw [ParsedCidr.numbers, mem_block] at hfirst hfirst'
  have hbase : left.base = right.base := by omega
  have hprefix : left.prefixLength = right.prefixLength := by omega
  cases left
  cases right
  simp only [ParsedCidr.mk.injEq]
  exact ⟨hver, hbase, hprefix⟩

end Family

/-! ## The predicates on texts -/

theorem exists_of_cidrContains (h : cidrContains a b = true) :
    ∃ outer inner, parseCidr a = some outer ∧ parseCidr b = some inner := by
  cases ha : parseCidr a with
  | none => simp [cidrContains, ha] at h
  | some outer =>
    cases hb : parseCidr b with
    | none => simp [cidrContains, ha, hb] at h
    | some inner => exact ⟨outer, inner, rfl, rfl⟩

theorem exists_of_cidrsOverlap (h : cidrsOverlap a b = true) :
    ∃ left right, parseCidr a = some left ∧ parseCidr b = some right := by
  cases ha : parseCidr a with
  | none => simp [cidrsOverlap, ha] at h
  | some left =>
    cases hb : parseCidr b with
    | none => simp [cidrsOverlap, ha, hb] at h
    | some right => exact ⟨left, right, rfl, rfl⟩

theorem cidrContains_iff_subset {outer inner : ParsedCidr}
    (ha : parseCidr a = some outer) (hb : parseCidr b = some inner) : cidrContains a b = true ↔
      outer.version = inner.version ∧ inner.numbers ⊆ outer.numbers := by
  rw [cidrContains_iff ha hb]
  exact ⟨fun ⟨hver, _, h⟩ => ⟨hver, h⟩,
    fun ⟨hver, h⟩ => ⟨hver, prefixLength_le_of_subset ha hb hver h, h⟩⟩

/-- **Overlap is a common address.** -/
theorem cidrsOverlap_iff_addresses (a b : Text) : cidrsOverlap a b = true ↔
    ∃ left right, parseCidr a = some left ∧ parseCidr b = some right ∧
      left.version = right.version ∧ (addresses a ∩ addresses b).Nonempty := by
  constructor
  · intro h
    obtain ⟨left, right, ha, hb⟩ := exists_of_cidrsOverlap h
    obtain ⟨hver, hmeet⟩ := (cidrsOverlap_iff ha hb).1 h
    exact ⟨left, right, ha, hb, hver, (nonempty_inter_addresses_iff ha hb hver).2 hmeet⟩
  · rintro ⟨left, right, ha, hb, hver, hmeet⟩
    exact (cidrsOverlap_iff ha hb).2 ⟨hver, (nonempty_inter_addresses_iff ha hb hver).1 hmeet⟩

/-- **Containment is inclusion of the addresses.** -/
theorem cidrContains_iff_addresses (a b : Text) : cidrContains a b = true ↔
    ∃ outer inner, parseCidr a = some outer ∧ parseCidr b = some inner ∧
      outer.version = inner.version ∧ addresses b ⊆ addresses a := by
  constructor
  · intro h
    obtain ⟨outer, inner, ha, hb⟩ := exists_of_cidrContains h
    obtain ⟨hver, hsub⟩ := (cidrContains_iff_subset ha hb).1 h
    exact ⟨outer, inner, ha, hb, hver, (addresses_subset_iff ha hb hver).2 hsub⟩
  · rintro ⟨outer, inner, ha, hb, hver, hsub⟩
    exact (cidrContains_iff_subset ha hb).2 ⟨hver, (addresses_subset_iff ha hb hver).1 hsub⟩

/-! ## One text per block -/

/-- **A block that was read is read again from its text.** -/
theorem parseCidr_formatCidr (h : parseCidr s = some c) : parseCidr (formatCidr c) = some c := by
  have hfits := fits_of_parseCidr h
  have hbase : c.base < 2 ^ c.version.bitWidth := by
    have : 0 < 2 ^ c.hostBits := by positivity
    omega
  have hver := parseIpVersion_bigIntToIp c.base c.version
  have hdec : isDecimal (Nat.toDigits 10 c.prefixLength) = true :=
    isDecimal_iff.2 ⟨Nat.toDigits_ne_nil, fun _ => isDigitOf_of_mem_decimal⟩
  have haligned : c.base = (c.base >>> c.hostBits) <<< c.hostBits := by
    rw [shiftRight_shiftLeft, Nat.div_mul_cancel (aligned_of_parseCidr h)]
  refine parseCidr_eq_some.2 ⟨bigIntToIp c.base c.version, Nat.toDigits 10 c.prefixLength, ?_, ?_,
    hver, hdec, ofDigits_toDigits (by decide) (by decide) _, prefixLength_le_of_parseCidr h, c.base,
    ipToBigInt_bigIntToIp hbase, haligned⟩
  · refine trim_eq_self_of_forall fun x hx => ?_
    rcases List.mem_append.1 hx with hx | hx
    · exact not_isSpace_of_mem_bigIntToIp hx
    · rcases List.mem_cons.1 hx with rfl | hx
      · decide
      · exact not_isSpace_of_isDigitOf (by decide) (isDigitOf_of_mem_decimal hx)
  · intro hnil
    rw [hnil] at hver
    cases hver

/-- **One text per block.** -/
theorem alignedNetworkCidr_eq_iff {left right : ParsedCidr}
    (ha : parseCidr a = some left) (hb : parseCidr b = some right) :
    alignedNetworkCidr a = alignedNetworkCidr b ↔ left = right := by
  rw [alignedNetworkCidr, alignedNetworkCidr, ha, hb, map_some, map_some,
    Option.some.injEq]
  refine ⟨fun h => ?_, fun h => by rw [h]⟩
  have hread := parseCidr_formatCidr ha
  rw [h, parseCidr_formatCidr hb] at hread
  exact (Option.some.inj hread).symm

/-! ## The order -/

theorem cidrContains_refl_iff (a : Text) : cidrContains a a = true ↔ isValidCidr a = true := by
  rw [isValidCidr, isSome_iff_exists, cidrContains_iff_addresses]
  constructor
  · rintro ⟨c, -, hc, -⟩
    exact ⟨c, hc⟩
  · rintro ⟨c, hc⟩
    exact ⟨c, c, hc, hc, rfl, Set.Subset.rfl⟩

theorem cidrContains_trans {c : Text} (hab : cidrContains a b = true)
    (hbc : cidrContains b c = true) : cidrContains a c = true := by
  rw [cidrContains_iff_addresses] at hab hbc ⊢
  obtain ⟨outer, middle, ha, hb, hver, hsub⟩ := hab
  obtain ⟨middle', inner, hb', hc, hver', hsub'⟩ := hbc
  obtain rfl : middle = middle' := by rw [hb] at hb'; exact Option.some.inj hb'
  exact ⟨outer, inner, ha, hc, hver.trans hver', hsub'.trans hsub⟩

theorem cidrContains_antisymm_iff (a b : Text) :
    cidrContains a b = true ∧ cidrContains b a = true ↔
      ∃ network, alignedNetworkCidr a = some network ∧ alignedNetworkCidr b = some network := by
  constructor
  · rintro ⟨hab, hba⟩
    obtain ⟨left, right, ha, hb⟩ := exists_of_cidrContains hab
    obtain ⟨hver, hsub⟩ := (cidrContains_iff_subset ha hb).1 hab
    obtain ⟨-, hsub'⟩ := (cidrContains_iff_subset hb ha).1 hba
    refine ⟨formatCidr left, by rw [alignedNetworkCidr, ha]; rfl, ?_⟩
    rw [alignedNetworkCidr, hb, eq_of_numbers_subset ha hb hver hsub hsub']
    rfl
  · rintro ⟨network, hna, hnb⟩
    obtain ⟨left, ha, -⟩ := map_eq_some_iff.1 hna
    obtain ⟨right, hb, -⟩ := map_eq_some_iff.1 hnb
    obtain rfl := (alignedNetworkCidr_eq_iff ha hb).1 (hna.trans hnb.symm)
    exact ⟨(cidrContains_iff_subset ha hb).2 ⟨rfl, Set.Subset.rfl⟩,
      (cidrContains_iff_subset hb ha).2 ⟨rfl, Set.Subset.rfl⟩⟩

theorem cidrsOverlap_comm (a b : Text) : cidrsOverlap a b = cidrsOverlap b a := by
  have key : ∀ {x y : Text}, cidrsOverlap x y = true → cidrsOverlap y x = true := by
    intro x y h
    rw [cidrsOverlap_iff_addresses] at h ⊢
    obtain ⟨left, right, ha, hb, hver, hmeet⟩ := h
    exact ⟨right, left, hb, ha, hver.symm, by rwa [Set.inter_comm]⟩
  exact Bool.eq_iff_iff.2 ⟨key, key⟩

theorem contains_of_cidrsOverlap (h : cidrsOverlap a b = true) :
    cidrContains a b = true ∨ cidrContains b a = true := by
  obtain ⟨left, right, ha, hb⟩ := exists_of_cidrsOverlap h
  obtain ⟨hver, hmeet⟩ := (cidrsOverlap_iff ha hb).1 h
  rcases Nat.le_total left.prefixLength right.prefixLength with hle | hle
  · refine .inl ((cidrContains_iff_subset ha hb).2 ⟨hver, ?_⟩)
    exact subset_of_not_disjoint_of_prefix ha hb hver hle hmeet
  · refine .inr ((cidrContains_iff_subset hb ha).2 ⟨hver.symm, ?_⟩)
    exact subset_of_not_disjoint_of_prefix hb ha hver.symm hle (by rwa [disjoint_comm])

/-- **CIDR predicates mean sets.** Overlap is a common address and containment is inclusion of the
addresses, for CIDRs that are read and of one family. So containment is a partial order on the valid
CIDRs up to `alignedNetworkCidr`, overlap is symmetric, and CIDRs that overlap are nested. -/
theorem cidr_predicates_mean_sets (a b : Text) :
    (cidrsOverlap a b = true ↔ ∃ left right, parseCidr a = some left ∧ parseCidr b = some right ∧
      left.version = right.version ∧
        ∃ x, addressInCidr x a = true ∧ addressInCidr x b = true) ∧
    (cidrContains a b = true ↔ ∃ outer inner, parseCidr a = some outer ∧
      parseCidr b = some inner ∧ outer.version = inner.version ∧
        ∀ x, addressInCidr x b = true → addressInCidr x a = true) ∧
    (cidrContains a a = true ↔ isValidCidr a = true) ∧
    (∀ c, cidrContains a b = true → cidrContains b c = true → cidrContains a c = true) ∧
    (cidrContains a b = true ∧ cidrContains b a = true ↔
      ∃ network, alignedNetworkCidr a = some network ∧ alignedNetworkCidr b = some network) ∧
    cidrsOverlap a b = cidrsOverlap b a ∧
    (cidrsOverlap a b = true → cidrContains a b = true ∨ cidrContains b a = true) :=
  ⟨cidrsOverlap_iff_addresses a b, cidrContains_iff_addresses a b, cidrContains_refl_iff a,
    fun _ => cidrContains_trans, cidrContains_antisymm_iff a b, cidrsOverlap_comm a b,
    contains_of_cidrsOverlap⟩

theorem cidr_predicates_three_networks :
    cidrContains "10.0.0.0/8".toList "10.1.2.0/24".toList = true ∧
      (cidrContains "10.0.0.0/8".toList "10.1.0.0/16".toList = true ∨
        cidrContains "10.1.0.0/16".toList "10.0.0.0/8".toList = true) := by
  obtain ⟨-, -, -, htrans, -, -, hnested⟩ :=
    cidr_predicates_mean_sets "10.0.0.0/8".toList "10.1.0.0/16".toList
  exact ⟨htrans "10.1.2.0/24".toList (by decide) (by decide), hnested (by decide)⟩

end TurboPanel.Ip
