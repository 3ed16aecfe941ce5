import TurboPanel.Js.Int32
import TurboPanel.Lib.CidrSets

/-!
# Carving the fabric's address pools

The model of `src/features/fabric/cidr.ts`: the IPv4 pool arithmetic, which the source does with the
32-bit operators on numbers, and the search for the lowest free subnet.

Networks at or above `128.0.0.0` are negative in `Ipv4Cidr.network`, and offsets are added to them
before they are masked back. `parseIpv4Cidr_eq` shows that the 32-bit value is the base of the block
that the address reader finds in the same text, and `nthSubnet_eq` that a subnet is the cell of that
block with the same index. The results about pools follow from the ones about blocks.
-/

namespace TurboPanel.Fabric

open Option Bool Js Ip Blocks List

/-! ## The program -/

structure Ipv4Cidr where
  network : ℤ
  prefixLength : ℕ
  hostCount : ℤ

def ipv4ToInt (address : Text) : Option ℤ :=
  let parts := address.splitOn '.'
  if parts.length ≠ 4 then none
  else
    (parts.foldlM (fun value part => do
      let octet ← parseInt 10 part
      if octet < 0 ∨ 255 < octet then none else some (shl value 8 + octet)) 0).map (ushr · 0)

def intToIpv4 (value : ℤ) : Text :=
  ['.'].intercalate ([and32 (ushr value 24) 255, and32 (ushr value 16) 255,
    and32 (ushr value 8) 255, and32 value 255].map fun octet => Nat.toDigits 10 octet.toNat)

def maskForPrefix (len : ℕ) : ℤ :=
  if len ≤ 0 then 0
  else if 32 ≤ len then 0xffffffff
  else ushr (shl 0xffffffff (32 - len)) 0

def parseIpv4Cidr (value : Text) : Option Ipv4Cidr :=
  let trimmed := trim value
  if isValidCidr trimmed = false then none
  else
    match cutLastSlash trimmed with
    | none => none
    | some (address, suffix) => do
      let len ← parseInt 10 suffix
      if len < 0 ∨ 32 < len then none
      else
        let ip ← ipv4ToInt address
        let mask := maskForPrefix len.toNat
        return { network := and32 ip mask
                 prefixLength := len.toNat
                 hostCount := if 32 ≤ len then 1 else 2 ^ (32 - len.toNat) }

def nthHostAddress (cidrValue : Text) (index : ℤ) : Option Text :=
  (parseIpv4Cidr cidrValue).bind fun parsed =>
    if 31 ≤ parsed.prefixLength then none
    -- Skip network (0) and broadcast (hostCount-1); index is 0-based among hosts.
    else if index < 0 ∨ parsed.hostCount - 2 ≤ index then none
    else some (intToIpv4 (parsed.network + 1 + index))

/-- Last usable host in a segment CIDR, reserved for the platform attachment. -/
def reservedManagedIngressAddress (cidrValue : Text) : Option Text :=
  (parseIpv4Cidr cidrValue).bind fun parsed =>
    if 31 ≤ parsed.prefixLength then none else nthHostAddress cidrValue (parsed.hostCount - 3)

def nthSubnet (poolCidr : Text) (prefixLength : ℕ) (index : ℤ) : Option Text :=
  (parseIpv4Cidr poolCidr).bind fun pool =>
    if prefixLength < pool.prefixLength ∨ 32 < prefixLength then none
    else
      let blockSize : ℤ := 2 ^ (32 - prefixLength)
      let available : ℤ := 2 ^ (prefixLength - pool.prefixLength)
      if index < 0 ∨ available ≤ index then none
      else some (intToIpv4 (pool.network + index * blockSize) ++ '/' :: Nat.toDigits 10 prefixLength)

/-- The loop of `nextFreeSubnet` from index `i`, for at most `fuel` rounds. -/
def nextFreeSubnetLoop (poolCidr : Text) (prefixLength : ℕ) (taken exclusions : List Text) :
    ℕ → ℕ → Option Text
  | 0, _ => none
  | fuel + 1, i =>
    match nthSubnet poolCidr prefixLength i with
    | none => none
    | some candidate =>
      if taken.contains candidate || exclusions.any (cidrsOverlap candidate) then
        nextFreeSubnetLoop poolCidr prefixLength taken exclusions fuel (i + 1)
      else some candidate

/-- Lowest-free subnet of `prefixLength` inside `poolCidr`. No pool has more than `2 ^ 32` subnets,
so the rounds never run out (`nextFreeSubnet_eq_find`). -/
def nextFreeSubnet (poolCidr : Text) (prefixLength : ℕ) (taken exclusions : List Text) :
    Option Text :=
  nextFreeSubnetLoop poolCidr prefixLength taken exclusions (2 ^ 32 + 1) 0

/-! ## The 32-bit arithmetic -/

theorem intToIpv4_eq (value : ℤ) : intToIpv4 value = bigIntToIpv4 (bits value).toNat := by
  have hbyte : ∀ {k : ℕ}, k < 32 → and32 (ushr value k) 255 = ((bits value).toNat / 2 ^ k % 256 : ℕ) := by
    intro k hk
    rw [and32_byte, bits_ushr value hk, BitVec.toNat_ushiftRight, Nat.shiftRight_eq_div_pow]
  rw [intToIpv4, bigIntToIpv4_eq, hbyte (by decide), hbyte (by decide), hbyte (by decide),
    and32_byte]
  rfl

theorem bits_maskForPrefix {len : ℕ} (h : len ≤ 32) :
    bits (maskForPrefix len) = BitVec.allOnes 32 <<< (32 - len) := by
  unfold maskForPrefix
  split
  · rename_i h0
    obtain rfl : len = 0 := by omega
    decide
  · split
    · obtain rfl : len = 32 := by omega
      decide
    · rw [bits_ushr _ (by decide), bits_shl _ (by omega)]
      simp only [BitVec.ushiftRight_zero]
      rfl

theorem bits_natCast_toNat {n : ℕ} (h : n < 2 ^ 32) : (bits (n : ℤ)).toNat = n := by
  rw [bits_natCast, BitVec.toNat_ofNat, Nat.mod_eq_of_lt h]

theorem toNat_bits_network {v len : ℕ} (hv : v < 2 ^ 32) (hlen : len ≤ 32) :
    (bits (and32 v (maskForPrefix len))).toNat = v / 2 ^ (32 - len) * 2 ^ (32 - len) := by
  rw [bits_and, bits_maskForPrefix hlen, toNat_and_allOnes_shl _ (Nat.sub_le _ _),
    bits_natCast_toNat hv]

theorem bits_zero : (bits 0).toNat = 0 % 2 ^ 32 := by decide

theorem toNat_bits_shl_add (x : ℤ) {n : ℕ} (o : ℕ) (hx : (bits x).toNat = n % 2 ^ 32) :
    (bits (shl x 8 + o)).toNat = (n * 256 + o) % 2 ^ 32 := by
  rw [bits_add, bits_shl x (by decide), bits_natCast, BitVec.toNat_add, BitVec.toNat_shiftLeft,
    BitVec.toNat_ofNat, hx, Nat.shiftLeft_eq]
  omega

theorem ipv4ToInt_eq {l : Text} {v : ℕ} (hv : v < 2 ^ 32) (h : trim l = bigIntToIpv4 v) :
    ipv4ToInt l = some (v : ℤ) := by
  obtain ⟨w, r, hw, hr, hl⟩ := exists_eq_append_trim l
  rw [h, bigIntToIpv4_eq] at hl
  have hs := splitOn_padded_dotted hw hr (v / 2 ^ 24 % 256) (v / 2 ^ 16 % 256) (v / 2 ^ 8 % 256)
    (v % 256)
  rw [← octetsOf, ← hl] at hs
  have h₁ := parseInt_decimal hw (r := []) (by simp) (v / 2 ^ 24 % 256)
  have h₂ := parseInt_decimal (w := []) (r := []) (by simp) (by simp) (v / 2 ^ 16 % 256)
  have h₃ := parseInt_decimal (w := []) (r := []) (by simp) (by simp) (v / 2 ^ 8 % 256)
  have h₄ := parseInt_decimal (w := []) (by simp) hr (v % 256)
  simp only [append_nil, nil_append] at h₁ h₂ h₃ h₄
  have hle : ∀ n : ℕ, ¬(((n % 256 : ℕ) : ℤ) < 0 ∨ 255 < ((n % 256 : ℕ) : ℤ)) := by
    intro n
    have := Nat.mod_lt n (show 0 < 256 by decide)
    omega
  simp only [ipv4ToInt, hs, length_cons, length_nil, ne_eq, not_true_eq_false, if_false,
    foldlM_cons, foldlM_nil, h₁, h₂, h₃, h₄, bind_eq_bind, bind_some, hle,
    Option.pure_def, Option.map_some, Option.some.injEq]
  have e₁ := toNat_bits_shl_add 0 (v / 2 ^ 24 % 256) bits_zero
  have e₂ := toNat_bits_shl_add _ (v / 2 ^ 16 % 256) e₁
  have e₃ := toNat_bits_shl_add _ (v / 2 ^ 8 % 256) e₂
  have e₄ := toNat_bits_shl_add _ (v % 256) e₃
  have hsum : ((((0 * 256 + v / 2 ^ 24 % 256) * 256 + v / 2 ^ 16 % 256) * 256 +
      v / 2 ^ 8 % 256) * 256 + v % 256) % 2 ^ 32 = v := by omega
  rw [ushr_zero, e₄, hsum]

theorem parseCidr_trim (s : Text) : parseCidr (trim s) = parseCidr s := by
  simp only [parseCidr, trim_trim]

/-- **The 32-bit reader finds the block of the address reader**: the same prefix length, and a
network whose 32 bits are the block's base. -/
theorem parseIpv4Cidr_eq {s : Text} {c : ParsedCidr} (h : parseCidr s = some c)
    (hv : c.version = .v4) :
    ∃ network : ℤ, (bits network).toNat = c.base ∧
      parseIpv4Cidr s = some { network, prefixLength := c.prefixLength,
                               hostCount := 2 ^ (32 - c.prefixLength) } := by
  have hb := isIpv4Block_of_parseCidr h hv
  obtain ⟨address, bts, hs, hne, hver, hdec, hval, hle, b, hread, hbase⟩ := parseCidr_eq_some.1 h
  obtain ⟨hbne, hbd⟩ := isDecimal_iff.1 hdec
  rw [hv] at hver
  obtain ⟨v, hv32, htrim, hread'⟩ := exists_of_parseIpVersion_v4 hver
  obtain rfl : v = b := by rw [hread'] at hread; exact Option.some.inj hread
  have hcut : cutLastSlash (trim s) = some (address, bts) :=
    cutLastSlash_eq_some.2 ⟨hs, hne, fun hmem => absurd (hbd '/' hmem) (by decide)⟩
  have hvalid : isValidCidr (trim s) = true := by rw [isValidCidr, parseCidr_trim, h]; rfl
  have hp := hb.prefix_le
  refine ⟨and32 v (maskForPrefix c.prefixLength), ?_, ?_⟩
  · rw [toNat_bits_network hv32 hb.prefix_le, hbase, shiftRight_shiftLeft, hb.hostBits_eq]
  · simp only [parseIpv4Cidr, hvalid, true_eq_false, if_false, hcut,
      parseInt_digits (by decide) hbne hbd, hval, bind_eq_bind, bind_some,
      ipv4ToInt_eq hv32 htrim, Int.toNat_natCast, Option.pure_def]
    rw [if_neg (by omega)]
    congr 2
    split
    · rw [show c.prefixLength = 32 by omega]
      rfl
    · rfl

/-! ## Subnets are cells -/

section Pool

variable {pool : Text} {c : ParsedCidr} (h : parseCidr pool = some c) (hv : c.version = .v4)
variable {p : ℕ} (hlo : c.prefixLength ≤ p) (hhi : p ≤ 32)

/-- The text of the subnet with index `i`. -/
def subnetText (c : ParsedCidr) (p i : ℕ) : Text :=
  bigIntToIpv4 (c.base + i * 2 ^ (32 - p)) ++ '/' :: Nat.toDigits 10 p

include h hv hlo hhi

theorem pool_size : 2 ^ c.hostBits = 2 ^ (p - c.prefixLength) * 2 ^ (32 - p) := by
  rw [(isIpv4Block_of_parseCidr h hv).hostBits_eq, ← pow_add]
  congr 1
  omega

theorem subnet_fits {i : ℕ} (hi : i < 2 ^ (p - c.prefixLength)) :
    c.base + i * 2 ^ (32 - p) < 2 ^ 32 := by
  have hb := (isIpv4Block_of_parseCidr h hv).fits
  rw [pool_size h hv hlo hhi] at hb
  have := @cell_end_le (2 ^ (32 - p)) _ _ hi
  have : 0 < 2 ^ (32 - p) := by positivity
  omega

/-- **`nthSubnet` is defined on the indices of the cells**, and there it prints the cell, however
the network was represented. -/
theorem nthSubnet_eq (i : ℤ) : nthSubnet pool p i =
    if 0 ≤ i ∧ i < 2 ^ (p - c.prefixLength) then some (subnetText c p i.toNat) else none := by
  obtain ⟨network, hnet, hparse⟩ := parseIpv4Cidr_eq h hv
  simp only [nthSubnet, hparse, bind_some]
  rw [if_neg (by omega)]
  by_cases hi : 0 ≤ i ∧ i < 2 ^ (p - c.prefixLength)
  · obtain ⟨n, rfl⟩ := Int.eq_ofNat_of_zero_le hi.1
    have hn : n < 2 ^ (p - c.prefixLength) := by exact_mod_cast hi.2
    have hcast : (n : ℤ) * 2 ^ (32 - p) = ((n * 2 ^ (32 - p) : ℕ) : ℤ) := by push_cast; ring
    have hlt := subnet_fits h hv hlo hhi hn
    rw [if_neg (by omega), if_pos hi, subnetText, intToIpv4_eq, hcast, bits_add, BitVec.toNat_add,
      hnet, bits_natCast_toNat (by omega), Nat.mod_eq_of_lt hlt, Int.toNat_natCast]
  · rw [if_pos (by omega), if_neg hi]

theorem nthSubnet_eq_some {i : ℤ} {s : Text} : nthSubnet pool p i = some s ↔
    ∃ n : ℕ, n < 2 ^ (p - c.prefixLength) ∧ i = n ∧ s = subnetText c p n := by
  rw [nthSubnet_eq h hv hlo hhi]
  constructor
  · intro hs
    simp only [ite_none_right_eq_some, Option.some.injEq] at hs
    obtain ⟨⟨h0, hi⟩, rfl⟩ := hs
    obtain ⟨n, rfl⟩ := Int.eq_ofNat_of_zero_le h0
    exact ⟨n, by exact_mod_cast hi, rfl, rfl⟩
  · rintro ⟨n, hn, rfl, rfl⟩
    rw [if_pos ⟨Int.natCast_nonneg n, by exact_mod_cast hn⟩, Int.toNat_natCast]

theorem parseCidr_subnetText {i : ℕ} (hi : i < 2 ^ (p - c.prefixLength)) :
    ∃ s, parseCidr (subnetText c p i) = some s ∧ s.version = .v4 ∧ s.prefixLength = p ∧
      s.numbers = cell c.base (2 ^ (32 - p)) i := by
  have hdvd : 2 ^ (32 - p) ∣ c.base := by
    refine dvd_trans ?_ (isIpv4Block_of_parseCidr h hv).aligned
    rw [pool_size h hv hlo hhi]
    exact Dvd.intro_left _ rfl
  have hself : (c.base + i * 2 ^ (32 - p)) / 2 ^ (32 - p) * 2 ^ (32 - p) =
      c.base + i * 2 ^ (32 - p) :=
    Nat.div_mul_cancel (dvd_add hdvd (Dvd.intro_left _ rfl))
  refine ⟨_, parseCidr_print (subnet_fits h hv hlo hhi hi) hhi, rfl, rfl, ?_⟩
  simp only [ParsedCidr.numbers, ParsedCidr.hostBits, IpAddressVersion.bitWidth, hself]
  rfl

theorem subnetText_overlap {i j : ℕ} (hi : i < 2 ^ (p - c.prefixLength))
    (hj : j < 2 ^ (p - c.prefixLength)) (hne : i ≠ j) :
    cidrsOverlap (subnetText c p i) (subnetText c p j) = false := by
  obtain ⟨s, hs, -, -, hsn⟩ := parseCidr_subnetText h hv hlo hhi hi
  obtain ⟨t, ht, -, -, htn⟩ := parseCidr_subnetText h hv hlo hhi hj
  rw [eq_false_iff, ne_eq, cidrsOverlap_iff hs ht, hsn, htn]
  exact fun hcon => hcon.2 (cell_disjoint _ _ hne)

theorem subnetText_contained {i : ℕ} (hi : i < 2 ^ (p - c.prefixLength)) :
    cidrContains pool (subnetText c p i) = true := by
  obtain ⟨s, hs, hsv, hsp, hsn⟩ := parseCidr_subnetText h hv hlo hhi hi
  refine (cidrContains_iff h hs).2 ⟨by rw [hv, hsv], by omega, ?_⟩
  rw [hsn, ParsedCidr.numbers, pool_size h hv hlo hhi]
  exact cell_subset _ hi

theorem exists_subnetText_of_mem {address : Text} (ha : addressInCidr address pool = true) :
    ∃ i < 2 ^ (p - c.prefixLength), addressInCidr address (subnetText c p i) = true := by
  obtain ⟨hver, v, hread, hmem⟩ := (addressInCidr_iff h).1 ha
  rw [ParsedCidr.numbers, pool_size h hv hlo hhi] at hmem
  obtain ⟨i, hi, hcell⟩ := exists_cell (by positivity) hmem
  obtain ⟨s, hs, hsv, -, hsn⟩ := parseCidr_subnetText h hv hlo hhi hi
  refine ⟨i, hi, (addressInCidr_iff hs).2 ⟨by rw [hver, hv, hsv], v, hread, ?_⟩⟩
  rwa [hsn]

/-! ## The lowest free subnet -/

/-- A subnet that may be handed out: not taken, and clear of every exclusion. -/
def isFree (taken exclusions : List Text) (s : Text) : Bool :=
  !(taken.contains s || exclusions.any (cidrsOverlap s))

omit h hv hlo hhi in
theorem isFree_iff {taken exclusions : List Text} {s : Text} : isFree taken exclusions s = true ↔
    s ∉ taken ∧ ∀ e ∈ exclusions, cidrsOverlap s e = false := by
  simp [isFree]

theorem nextFreeSubnetLoop_eq (taken exclusions : List Text) : ∀ (fuel i : ℕ),
    2 ^ (p - c.prefixLength) < i + fuel →
    nextFreeSubnetLoop pool p taken exclusions fuel i =
      ((List.range' i (2 ^ (p - c.prefixLength) - i)).find?
        fun j => isFree taken exclusions (subnetText c p j)).map (subnetText c p)
  | 0, i, hf => by
    rw [show 2 ^ (p - c.prefixLength) - i = 0 by omega]
    rfl
  | fuel + 1, i, hf => by
    by_cases hi : i < 2 ^ (p - c.prefixLength)
    · have hn : nthSubnet pool p (i : ℤ) = some (subnetText c p i) :=
        (nthSubnet_eq_some h hv hlo hhi).2 ⟨i, hi, rfl, rfl⟩
      have ih := nextFreeSubnetLoop_eq taken exclusions fuel (i + 1) (by omega)
      rw [show 2 ^ (p - c.prefixLength) - i = (2 ^ (p - c.prefixLength) - (i + 1)) + 1 by omega,
        range'_succ]
      simp only [nextFreeSubnetLoop, hn, find?_cons, isFree]
      by_cases hfree : (taken.contains (subnetText c p i) ||
          exclusions.any (cidrsOverlap (subnetText c p i))) = true
      · rw [if_pos hfree, hfree, Bool.not_true, ih]
        rfl
      · rw [if_neg hfree, Bool.eq_false_iff.2 hfree, Bool.not_false]
        rfl
    · have hn : nthSubnet pool p (i : ℤ) = none := by
        rw [nthSubnet_eq h hv hlo hhi, if_neg fun hc => hi (by exact_mod_cast hc.2)]
      rw [show 2 ^ (p - c.prefixLength) - i = 0 by omega]
      simp [nextFreeSubnetLoop, hn]

theorem nextFreeSubnet_eq_find (taken exclusions : List Text) :
    nextFreeSubnet pool p taken exclusions =
      ((List.range (2 ^ (p - c.prefixLength))).find?
        fun j => isFree taken exclusions (subnetText c p j)).map (subnetText c p) := by
  have hle : 2 ^ (p - c.prefixLength) ≤ 2 ^ 32 := Nat.pow_le_pow_right (by decide) (by omega)
  rw [nextFreeSubnet, nextFreeSubnetLoop_eq h hv hlo hhi taken exclusions _ _ (by omega),
    Nat.sub_zero, range_eq_range']

theorem nextFreeSubnet_eq_some {taken exclusions : List Text} {s : Text} :
    nextFreeSubnet pool p taken exclusions = some s ↔
      ∃ i < 2 ^ (p - c.prefixLength), s = subnetText c p i ∧ isFree taken exclusions s = true ∧
        ∀ j < i, isFree taken exclusions (subnetText c p j) = false := by
  rw [nextFreeSubnet_eq_find h hv hlo hhi, map_eq_some_iff]
  simp only [find?_range_eq_some, mem_range, Bool.not_eq_eq_eq_not, Bool.not_true]
  constructor
  · rintro ⟨i, ⟨hfree, hi, hmin⟩, rfl⟩
    exact ⟨i, hi, rfl, hfree, hmin⟩
  · rintro ⟨i, hi, rfl, hfree, hmin⟩
    exact ⟨i, ⟨hfree, hi, hmin⟩, rfl⟩

theorem nextFreeSubnet_eq_none {taken exclusions : List Text} :
    nextFreeSubnet pool p taken exclusions = none ↔
      ∀ i < 2 ^ (p - c.prefixLength), isFree taken exclusions (subnetText c p i) = false := by
  rw [nextFreeSubnet_eq_find h hv hlo hhi, map_eq_none_iff, find?_range_eq_none]
  simp

theorem allocations_disjoint {taken results : List Text}
    (run : AllocationRun (fun exclusions taken => nextFreeSubnet pool p taken exclusions)
      taken results) :
    results.Pairwise (fun s t => cidrsOverlap s t = false) ∧
      ∀ s ∈ results, ∀ i t, t ∈ taken → nthSubnet pool p i = some t →
        cidrsOverlap s t = false := by
  have hfresh : ∀ exclusions taken s, nextFreeSubnet pool p taken exclusions = some s →
      s ∉ taken := by
    intro exclusions taken s hs
    obtain ⟨-, -, -, hfree, -⟩ := (nextFreeSubnet_eq_some h hv hlo hhi).1 hs
    exact (isFree_iff.1 hfree).1
  have hsub : ∀ s ∈ results, ∃ i < 2 ^ (p - c.prefixLength), s = subnetText c p i :=
    run.forall_mem fun exclusions taken s hs => by
      obtain ⟨i, hi, e, -⟩ := (nextFreeSubnet_eq_some h hv hlo hhi).1 hs
      exact ⟨i, hi, e⟩
  constructor
  · refine (run.pairwise_ne hfresh).imp_of_mem fun {s t} hs ht hne => ?_
    obtain ⟨i, hi, rfl⟩ := hsub s hs
    obtain ⟨j, hj, rfl⟩ := hsub t ht
    exact subnetText_overlap h hv hlo hhi hi hj (fun e => hne (by rw [e]))
  · intro s hs k t ht hk
    obtain ⟨i, hi, rfl⟩ := hsub s hs
    obtain ⟨j, hj, -, rfl⟩ := (nthSubnet_eq_some h hv hlo hhi).1 hk
    refine subnetText_overlap h hv hlo hhi hi hj fun e => ?_
    exact run.disjoint_taken hfresh _ hs (e ▸ ht)

end Pool

/-- **A pool is carved into disjoint subnets that exhaust it**, and subnets are handed out lowest
index first, so that no run of allocations gives overlapping ones. -/
theorem pool_carving {pool : Text} {c : ParsedCidr} (h : parseCidr pool = some c)
    (hv : c.version = .v4) {p : ℕ} (hlo : c.prefixLength ≤ p) (hhi : p ≤ 32) :
    (∀ i : ℤ, (nthSubnet pool p i).isSome ↔ 0 ≤ i ∧ i < 2 ^ (p - c.prefixLength)) ∧
    (∀ i s, nthSubnet pool p i = some s → cidrContains pool s = true) ∧
    (∀ i j s t, nthSubnet pool p i = some s → nthSubnet pool p j = some t → i ≠ j →
      cidrsOverlap s t = false) ∧
    (∀ address, addressInCidr address pool = true →
      ∃ i s, nthSubnet pool p i = some s ∧ addressInCidr address s = true) ∧
    (∀ taken exclusions s, nextFreeSubnet pool p taken exclusions = some s ↔
      ∃ i, nthSubnet pool p i = some s ∧ isFree taken exclusions s = true ∧
        ∀ j < i, ∀ t, nthSubnet pool p j = some t → isFree taken exclusions t = false) ∧
    (∀ taken exclusions, nextFreeSubnet pool p taken exclusions = none ↔
      ∀ i t, nthSubnet pool p i = some t → isFree taken exclusions t = false) ∧
    ∀ taken results,
      AllocationRun (fun exclusions taken => nextFreeSubnet pool p taken exclusions) taken results →
      results.Pairwise (fun s t => cidrsOverlap s t = false) ∧
        ∀ s ∈ results, ∀ i t, t ∈ taken → nthSubnet pool p i = some t →
          cidrsOverlap s t = false := by
  have hsome := fun {i s} => nthSubnet_eq_some h hv hlo hhi (i := i) (s := s)
  refine ⟨fun i => ?_, fun i s hs => ?_, fun i j s t hs ht hne => ?_, fun address ha => ?_,
    fun taken exclusions s => ?_, fun taken exclusions => ?_,
    fun taken results => allocations_disjoint h hv hlo hhi⟩
  · rw [nthSubnet_eq h hv hlo hhi]
    split <;> simp_all
  · obtain ⟨n, hn, -, rfl⟩ := hsome.1 hs
    exact subnetText_contained h hv hlo hhi hn
  · obtain ⟨m, hm, rfl, rfl⟩ := hsome.1 hs
    obtain ⟨n, hn, rfl, rfl⟩ := hsome.1 ht
    exact subnetText_overlap h hv hlo hhi hm hn (fun e => hne (by rw [e]))
  · obtain ⟨n, hn, hin⟩ := exists_subnetText_of_mem h hv hlo hhi ha
    exact ⟨n, _, hsome.2 ⟨n, hn, rfl, rfl⟩, hin⟩
  · rw [nextFreeSubnet_eq_some h hv hlo hhi]
    constructor
    · rintro ⟨n, hn, rfl, hfree, hmin⟩
      refine ⟨n, hsome.2 ⟨n, hn, rfl, rfl⟩, hfree, fun j hj t ht => ?_⟩
      obtain ⟨m, -, rfl, rfl⟩ := hsome.1 ht
      exact hmin m (by exact_mod_cast hj)
    · rintro ⟨i, hs, hfree, hmin⟩
      obtain ⟨n, hn, rfl, rfl⟩ := hsome.1 hs
      refine ⟨n, hn, rfl, hfree, fun j hj => ?_⟩
      exact hmin j (by exact_mod_cast hj) _ (hsome.2 ⟨j, hj.trans hn, rfl, rfl⟩)
  · rw [nextFreeSubnet_eq_none h hv hlo hhi]
    constructor
    · intro hnone i t ht
      obtain ⟨n, hn, -, rfl⟩ := hsome.1 ht
      exact hnone n hn
    · intro hnone n hn
      exact hnone n _ (hsome.2 ⟨n, hn, rfl, rfl⟩)

theorem pool_carving_negative_network :
    (nthSubnet "200.12.0.0/14".toList 16 3).isSome ↔ (0 : ℤ) ≤ 3 ∧ (3 : ℤ) < 2 ^ (16 - 14) :=
  (pool_carving (c := ⟨.v4, 3356229632, 14⟩) (by decide) rfl (p := 16) (by decide) (by decide)).1 3

end TurboPanel.Fabric
