import TurboPanel.Arith.Blocks
import TurboPanel.Data.Traversal
import TurboPanel.Lib.Ipv4Text

/-!
# CIDR predicates as statements about sets of numbers

A block that was read stands for the set of the numbers in it. Overlap, containment and membership,
which the source decides by comparing bounds, are the set relations.
-/

namespace TurboPanel.Ip

open List Bool Js Blocks

/-- The numbers of a block. -/
def ParsedCidr.numbers (c : ParsedCidr) : Set ℕ := block c.base (2 ^ c.hostBits)

variable {c : ParsedCidr}

theorem aligned_of_parseCidr {s : Text} (h : parseCidr s = some c) : 2 ^ c.hostBits ∣ c.base := by
  obtain ⟨_, _, _, _, _, _, _, _, b, _, hbase⟩ := parseCidr_eq_some.1 h
  rw [hbase, shiftRight_shiftLeft]
  exact Dvd.intro_left _ rfl

theorem cidrInclusiveLast_add_one (c : ParsedCidr) :
    cidrInclusiveLast c + 1 = c.base + 2 ^ c.hostBits := by
  have : 0 < 2 ^ c.hostBits := by positivity
  rw [cidrInclusiveLast, Nat.one_shiftLeft]
  omega

/-- **Overlap is a common number.** -/
theorem cidrsOverlap_iff {a b : Text} {left right : ParsedCidr} (ha : parseCidr a = some left)
    (hb : parseCidr b = some right) : cidrsOverlap a b = true ↔
      left.version = right.version ∧ ¬Disjoint left.numbers right.numbers := by
  have hl := cidrInclusiveLast_add_one left
  have hr := cidrInclusiveLast_add_one right
  have hl' : 0 < 2 ^ left.hostBits := by positivity
  have hr' : 0 < 2 ^ right.hostBits := by positivity
  simp only [cidrsOverlap, ha, hb, ne_eq, ite_not, if_false_right, and_eq_true,
    decide_eq_true_eq, Set.not_disjoint_iff, ParsedCidr.numbers, mem_block]
  refine and_congr_right fun _ => ⟨?_, ?_⟩
  · rintro ⟨h₁, h₂⟩
    exact ⟨max left.base right.base, by omega, by omega⟩
  · rintro ⟨v, hv₁, hv₂⟩
    omega

/-- **Containment is inclusion**, for blocks of the same family. -/
theorem cidrContains_iff {parent child : Text} {outer inner : ParsedCidr}
    (hp : parseCidr parent = some outer) (hc : parseCidr child = some inner) :
    cidrContains parent child = true ↔ outer.version = inner.version ∧
      outer.prefixLength ≤ inner.prefixLength ∧ inner.numbers ⊆ outer.numbers := by
  have ho := cidrInclusiveLast_add_one outer
  have hi := cidrInclusiveLast_add_one inner
  have hi' : 0 < 2 ^ inner.hostBits := by positivity
  simp only [cidrContains, hp, hc, ne_eq, ite_not, if_false_right, if_false_left,
    and_eq_true, decide_eq_true_eq, not_eq_true', decide_eq_false_iff_not, not_lt,
    ParsedCidr.numbers]
  refine and_congr_right fun _ => and_congr_right fun _ => ⟨fun ⟨h₁, h₂⟩ v hv => ?_, fun h => ?_⟩
  · rw [mem_block] at hv ⊢
    omega
  · have h₁ := h (show inner.base ∈ _ from ⟨le_rfl, by omega⟩)
    have h₂ := h (show cidrInclusiveLast inner ∈ _ from ⟨by omega, by omega⟩)
    rw [mem_block] at h₁ h₂
    omega

variable {cidr : Text}

/-- **An address is in a block when its number is**, and it is of the block's family. -/
theorem addressInCidr_iff {address : Text} (hc : parseCidr cidr = some c) :
    addressInCidr address cidr = true ↔
      parseIpVersion (stripInetPrefixSuffix address) = some c.version ∧
        ∃ v, ipToBigInt? address = some v ∧ v ∈ c.numbers := by
  have hal := aligned_of_parseCidr hc
  have hpos : 0 < 2 ^ c.hostBits := by positivity
  cases hv : ipToBigInt? address with
  | none => simp [addressInCidr, hc, hv]
  | some v =>
    simp only [addressInCidr, hc, hv, ne_eq, ite_not, if_false_right, and_eq_true,
      decide_eq_true_eq, beq_iff_eq, Option.some.injEq, exists_eq_left', ParsedCidr.numbers,
      mem_block_iff_div hpos hal, shiftRight_shiftLeft]

/-! ## Host ranges -/

theorem mem_numbers_of_hostRange (hc : parseCidr cidr = some c)
    {range : CidrHostRange} (hr : cidrHostRange cidr = some range) {v : ℕ}
    (h₁ : range.first ≤ v) (h₂ : v ≤ range.last) : v ∈ c.numbers := by
  have hpos : 0 < 2 ^ c.hostBits := by positivity
  rw [ParsedCidr.numbers, mem_block]
  simp only [cidrHostRange, hc, Option.bind_some, Nat.one_shiftLeft] at hr
  split at hr
  · split_ifs at hr with hp hs
    · cases hr
      dsimp only at h₁ h₂
      omega
    · cases hr
      dsimp only at h₁ h₂
      omega
  · split_ifs at hr with hone hzero
    · cases hr
      dsimp only at h₁ h₂
      omega
    · cases hr
      dsimp only at h₁ h₂
      omega

theorem nextFreeHostLoop_eq_some {used : List ℕ} {last v : ℕ} : ∀ {fuel candidate : ℕ},
    nextFreeHostLoop used last fuel candidate = some v ↔ candidate ≤ v ∧ v ≤ last ∧ v ∉ used ∧
      v < candidate + fuel ∧ ∀ w, candidate ≤ w → w < v → w ∈ used
  | 0, candidate => by
    rw [nextFreeHostLoop]
    refine iff_of_false (fun h => by cases h) ?_
    omega
  | fuel + 1, candidate => by
    rw [nextFreeHostLoop]
    split_ifs with hle hmem
    · rw [nextFreeHostLoop_eq_some]
      have hused : candidate ∈ used := by simpa using hmem
      constructor
      · rintro ⟨h₁, h₂, h₃, h₄, h₅⟩
        refine ⟨by omega, h₂, h₃, by omega, fun w hw hlt => ?_⟩
        rcases Nat.eq_or_lt_of_le hw with rfl | hw
        · exact hused
        · exact h₅ w hw hlt
      · rintro ⟨h₁, h₂, h₃, h₄, h₅⟩
        have hne : candidate ≠ v := fun h => h₃ (h ▸ hused)
        exact ⟨by omega, h₂, h₃, by omega, fun w hw => h₅ w (by omega)⟩
    · have hfree : candidate ∉ used := by simpa using hmem
      rw [Option.some.injEq]
      constructor
      · rintro rfl
        exact ⟨le_rfl, hle, hfree, by omega, fun w hw hlt => by omega⟩
      · rintro ⟨h₁, -, -, -, h₅⟩
        by_contra hne
        exact hfree (h₅ candidate le_rfl (by omega))
    · refine iff_of_false (fun h => by cases h) ?_
      omega

theorem mapM_ipToBigInt {addresses : List Text} {values : List (Option ℕ)}
    (h : addresses.mapM ipToBigInt = .ok values) : values.reduceOption = addresses.filterMap ipToBigInt? := by
  have hall := forall₂_of_mapM h
  clear h
  induction hall with
  | nil => rfl
  | @cons address value _ _ hread _ ih =>
    have hvalue : ipToBigInt? address = value := by rw [ipToBigInt?, hread]
    cases value with
    | none => rw [reduceOption_cons_of_none, filterMap_cons_none hvalue, ih]
    | some n => rw [reduceOption_cons_of_some, filterMap_cons_some hvalue, ih]

theorem eq_ok_of_join {ε α : Type} {x : Except ε (Option α)} {a : α} (h : x.toOption.join = some a) :
    x = .ok (some a) := by
  cases x with
  | error e => cases h
  | ok value => exact congrArg Except.ok h

/-- **A free host address is a host of the block and is not used.** -/
theorem nextFreeHostAddress_eq_some {a : Text} {used : List Text}
    (h : nextFreeHostAddress cidr used = .ok (some a)) : ∃ c range v, parseCidr cidr = some c ∧
      cidrHostRange cidr = some range ∧ a = bigIntToIp v c.version ∧ range.first ≤ v ∧
      v ≤ range.last ∧ ∀ u ∈ used, ipToBigInt? u ≠ some v := by
  simp only [nextFreeHostAddress] at h
  split at h
  · rename_i range c hr hc
    obtain ⟨values, hvalues, h⟩ := bind_eq_ok.1 h
    obtain ⟨v, hloop, rfl⟩ := Option.map_eq_some_iff.1 (Except.ok.inj h)
    obtain ⟨h₁, h₂, h₃, -⟩ := nextFreeHostLoop_eq_some.1 hloop
    refine ⟨c, range, v, hc, hr, rfl, h₁, h₂, fun u hu hnum => h₃ ?_⟩
    rw [mapM_ipToBigInt hvalues, mem_dedup, mem_filterMap]
    exact ⟨u, hu, hnum⟩
  · cases h

end TurboPanel.Ip
