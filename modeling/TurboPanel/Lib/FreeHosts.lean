import TurboPanel.Lib.CidrOrder

/-!
# The lowest free host address

The search of `nextFreeHostAddress` stops after one round more than there are used numbers. That is
enough: so many consecutive numbers cannot all be used (`sub_le_length_of_forall_mem`). But the used
numbers of both families share one set, so an address of the other family hides the host with its
number; and a used text such as `:: /64` makes `BigInt` throw. The lowest free host is returned
exactly when all used texts can be read and no used address of the other family has its number
(`returnsLowestFree_iff`).
-/

namespace TurboPanel.Ip

open List Option Js Blocks

/-! ## The search -/

variable {v : ℕ}

theorem sub_le_length_of_forall_mem {used : List ℕ} {first : ℕ}
    (h : ∀ w, first ≤ w → w < v → w ∈ used) : v - first ≤ used.length := by
  have hsub : List.range' first (v - first) ⊆ used := by
    intro w hw
    rw [mem_range'_1] at hw
    exact h w hw.1 (by omega)
  have hnodup : (List.range' first (v - first)).Nodup := nodup_range'
  have := (hnodup.subperm hsub).length_le
  rwa [length_range'] at this

theorem nextFreeHostLoop_iff_isLeast {used : List ℕ} {first last : ℕ} :
    nextFreeHostLoop used last (used.length + 1) first = some v ↔
      IsLeast {w | first ≤ w ∧ w ≤ last ∧ w ∉ used} v := by
  rw [nextFreeHostLoop_eq_some]
  constructor
  · rintro ⟨h₁, h₂, h₃, -, h₅⟩
    refine ⟨⟨h₁, h₂, h₃⟩, fun w hw => ?_⟩
    by_contra hlt
    exact hw.2.2 (h₅ w hw.1 (by omega))
  · rintro ⟨⟨h₁, h₂, h₃⟩, hleast⟩
    have hbelow : ∀ w, first ≤ w → w < v → w ∈ used := by
      intro w hw hlt
      by_contra hfree
      exact absurd (hleast ⟨hw, by omega, hfree⟩) (by omega)
    have := sub_le_length_of_forall_mem hbelow
    exact ⟨h₁, h₂, h₃, by omega, hbelow⟩

/-! ## Used numbers -/

/-- The hosts of a CIDR whose number no used address has, of any family or of the CIDR's. -/
def unusedHosts (sameFamily : Bool) (cidr : Text) (usedAddresses : List Text) : Set ℕ :=
  {v | ∃ c range, parseCidr cidr = some c ∧ cidrHostRange cidr = some range ∧
    range.first ≤ v ∧ v ≤ range.last ∧ ∀ u ∈ usedAddresses,
      (sameFamily = true → parseIpVersion (stripInetPrefixSuffix u) = some c.version) →
        ipToBigInt? u ≠ some v}

/-- The hosts that no used address of the CIDR's family denotes. -/
def freeHosts (cidr : Text) (usedAddresses : List Text) : Set ℕ :=
  unusedHosts true cidr usedAddresses

/-- The used texts are all read, where the CIDR has hosts at all. -/
def AllRead (cidr : Text) (usedAddresses : List Text) : Prop :=
  cidrHostRange cidr ≠ none → ∀ u ∈ usedAddresses, ipToBigInt u ≠ .error .notANumber

variable {cidr : Text} {usedAddresses : List Text}

theorem unusedHosts_eq {c : ParsedCidr} {range : CidrHostRange}
    (hc : parseCidr cidr = some c) (hr : cidrHostRange cidr = some range) : unusedHosts false cidr usedAddresses =
      {v | range.first ≤ v ∧ v ≤ range.last ∧ v ∉ (usedAddresses.filterMap ipToBigInt?).dedup} := by
  ext v
  have hused : (∀ u ∈ usedAddresses, ipToBigInt? u ≠ some v) ↔
      v ∉ (usedAddresses.filterMap ipToBigInt?).dedup := by
    rw [mem_dedup, mem_filterMap]
    exact ⟨fun h ⟨u, hu, hv⟩ => h u hu hv, fun h u hu hv => h ⟨u, hu, hv⟩⟩
  constructor
  · rintro ⟨c', range', hc', hr', h₁, h₂, h₃⟩
    obtain rfl : range = range' := by rw [hr] at hr'; exact Option.some.inj hr'
    exact ⟨h₁, h₂, hused.1 fun u hu => h₃ u hu (fun h => Bool.noConfusion h)⟩
  · rintro ⟨h₁, h₂, h₃⟩
    exact ⟨c, range, hc, hr, h₁, h₂, fun u hu _ => hused.2 h₃ u hu⟩

theorem exists_mapM_ipToBigInt {addresses : List Text} (h : ∀ u ∈ addresses, ipToBigInt u ≠ .error .notANumber) :
    ∃ values, addresses.mapM ipToBigInt = .ok values := by
  refine exists_mapM_ok fun u hu => ?_
  cases hread : ipToBigInt u with
  | ok value => exact ⟨value, rfl⟩
  | error e =>
    cases e
    exact absurd hread (h u hu)

/-- The function returns exactly when the used texts are all read. -/
theorem nextFreeHostAddress_returns_iff :
    (∃ result, nextFreeHostAddress cidr usedAddresses = .ok result) ↔ AllRead cidr usedAddresses := by
  simp only [nextFreeHostAddress]
  split
  · rename_i range c hr hc
    constructor
    · rintro ⟨result, h⟩ - u hu herror
      obtain ⟨values, hvalues, -⟩ := bind_eq_ok.1 h
      obtain ⟨value, hread⟩ := exists_of_mapM_ok hvalues u hu
      rw [herror] at hread
      cases hread
    · intro h
      obtain ⟨values, hvalues⟩ := exists_mapM_ipToBigInt (h (by rw [hr]; exact some_ne_none range))
      exact ⟨_, bind_eq_ok.2 ⟨values, hvalues, rfl⟩⟩
  · rename_i hnone
    refine iff_of_true ⟨none, rfl⟩ fun hrange u hu => ?_
    obtain ⟨range, hr⟩ := ne_none_iff_exists'.1 hrange
    cases hc : parseCidr cidr with
    | none =>
      rw [cidrHostRange, hc] at hr
      cases hr
    | some c => exact absurd hc (hnone range c hr)

theorem nextFreeHostAddress_eq_some_iff {a : Text} (hread : AllRead cidr usedAddresses) :
    nextFreeHostAddress cidr usedAddresses = .ok (some a) ↔ ∃ c v, parseCidr cidr = some c ∧
      a = bigIntToIp v c.version ∧ IsLeast (unusedHosts false cidr usedAddresses) v := by
  constructor
  · intro h
    simp only [nextFreeHostAddress] at h
    split at h
    · rename_i range c hr hc
      obtain ⟨values, hvalues, h⟩ := bind_eq_ok.1 h
      obtain ⟨v, hloop, rfl⟩ := map_eq_some_iff.1 (Except.ok.inj h)
      rw [mapM_ipToBigInt hvalues] at hloop
      exact ⟨c, v, hc, rfl, unusedHosts_eq hc hr ▸ nextFreeHostLoop_iff_isLeast.1 hloop⟩
    · cases h
  · rintro ⟨c, v, hc, rfl, hleast⟩
    obtain ⟨-, range, -, hr, -⟩ := hleast.1
    rw [unusedHosts_eq hc hr] at hleast
    obtain ⟨values, hvalues⟩ := exists_mapM_ipToBigInt (hread (by rw [hr]; exact some_ne_none range))
    rw [← mapM_ipToBigInt hvalues] at hleast
    simp only [nextFreeHostAddress, hr, hc]
    refine bind_eq_ok.2 ⟨values, hvalues, ?_⟩
    rw [nextFreeHostLoop_iff_isLeast.2 hleast]
    rfl

theorem unusedHosts_subset_freeHosts (cidr : Text) (usedAddresses : List Text) :
    unusedHosts false cidr usedAddresses ⊆ freeHosts cidr usedAddresses := by
  rintro v ⟨c, range, hc, hr, h₁, h₂, h₃⟩
  exact ⟨c, range, hc, hr, h₁, h₂, fun u hu _ => h₃ u hu fun h => Bool.noConfusion h⟩

theorem mem_unusedHosts_iff (h : v ∈ freeHosts cidr usedAddresses) :
    v ∈ unusedHosts false cidr usedAddresses ↔ ∀ u ∈ usedAddresses, ipToBigInt? u ≠ some v := by
  constructor
  · rintro ⟨c, range, hc, hr, h₁, h₂, h₃⟩ u hu
    exact h₃ u hu fun h => Bool.noConfusion h
  · intro hfree
    obtain ⟨c, range, hc, hr, h₁, h₂, -⟩ := h
    exact ⟨c, range, hc, hr, h₁, h₂, fun u hu _ => hfree u hu⟩

/-! ## When the lowest free host is returned -/

/-- `nextFreeHostAddress` returns the lowest host that no used address of the family denotes, which
is an address of the CIDR, and `null` when there is none. -/
structure ReturnsLowestFree (cidr : Text) (usedAddresses : List Text) : Prop where
  lowest : ∀ v, IsLeast (freeHosts cidr usedAddresses) v → ∃ c, parseCidr cidr = some c ∧
    nextFreeHostAddress cidr usedAddresses = .ok (some (bigIntToIp v c.version)) ∧
      addressInCidr (bigIntToIp v c.version) cidr = true
  none_free : freeHosts cidr usedAddresses = ∅ → nextFreeHostAddress cidr usedAddresses = .ok none

theorem mem_numbers_of_mem_freeHosts
    {c : ParsedCidr} (hc : parseCidr cidr = some c) (h : v ∈ freeHosts cidr usedAddresses) :
    v ∈ c.numbers := by
  obtain ⟨-, range, -, hr, h₁, h₂, -⟩ := h
  exact mem_numbers_of_hostRange hc hr h₁ h₂

theorem ReturnsLowestFree.returns (h : ReturnsLowestFree cidr usedAddresses) :
    ∃ result, nextFreeHostAddress cidr usedAddresses = .ok result := by
  by_cases hempty : freeHosts cidr usedAddresses = ∅
  · exact ⟨none, h.none_free hempty⟩
  · have hleast := isLeast_csInf (Set.nonempty_iff_ne_empty.2 hempty)
    obtain ⟨c, -, hnext, -⟩ := h.lowest _ hleast
    exact ⟨_, hnext⟩

/-- **The lowest free host.** It is returned, and `null` when there is none, exactly when all used
texts are read and its number is not the number of a used address, which can only be one of the
other family. -/
theorem returnsLowestFree_iff (cidr : Text) (usedAddresses : List Text) :
    ReturnsLowestFree cidr usedAddresses ↔ AllRead cidr usedAddresses ∧
      ∀ v, IsLeast (freeHosts cidr usedAddresses) v →
        ∀ u ∈ usedAddresses, ipToBigInt? u ≠ some v := by
  constructor
  · intro h
    have hread := nextFreeHostAddress_returns_iff.1 h.returns
    refine ⟨hread, fun v hleast => ?_⟩
    obtain ⟨c, hc, hnext, -⟩ := h.lowest v hleast
    obtain ⟨c', w, hc', heq, hleast'⟩ := (nextFreeHostAddress_eq_some_iff hread).1 hnext
    obtain rfl : c = c' := by rw [hc] at hc'; exact Option.some.inj hc'
    have hv := lt_of_mem_numbers hc (mem_numbers_of_mem_freeHosts hc hleast.1)
    have hw := lt_of_mem_numbers hc (mem_numbers_of_mem_freeHosts hc
      (unusedHosts_subset_freeHosts cidr usedAddresses hleast'.1))
    obtain rfl := (bigIntToIp_inj hv hw).1 heq
    exact (mem_unusedHosts_iff hleast.1).1 hleast'.1
  · rintro ⟨hread, hcond⟩
    refine ⟨fun v hleast => ?_, fun hempty => ?_⟩
    · obtain ⟨c, -, hc, -⟩ := hleast.1
      have hunused := (mem_unusedHosts_iff hleast.1).2 (hcond v hleast)
      have hleast' : IsLeast (unusedHosts false cidr usedAddresses) v :=
        ⟨hunused, fun w hw => hleast.2 (unusedHosts_subset_freeHosts cidr usedAddresses hw)⟩
      have hmem := mem_numbers_of_mem_freeHosts hc hleast.1
      exact ⟨c, hc, (nextFreeHostAddress_eq_some_iff hread).2 ⟨c, v, hc, rfl, hleast'⟩,
        (bigIntToIp_mem_addresses hc (lt_of_mem_numbers hc hmem)).2 hmem⟩
    · obtain ⟨result, hresult⟩ := nextFreeHostAddress_returns_iff.2 hread
      cases result with
      | none => exact hresult
      | some a =>
        obtain ⟨-, v, -, -, hleast⟩ := (nextFreeHostAddress_eq_some_iff hread).1 hresult
        have := unusedHosts_subset_freeHosts cidr usedAddresses hleast.1
        rw [hempty] at this
        exact absurd this (Set.notMem_empty v)

/-- A used address of the other family hides a free host. -/
theorem other_family_hides_host :
    (nextFreeHostAddress "10.0.0.0/30".toList ["::a00:1".toList] = .ok (some "10.0.0.2".toList) ∧
      ¬ReturnsLowestFree "10.0.0.0/30".toList ["::a00:1".toList]) ∧
    nextFreeHostAddress "10.0.0.0/30".toList [":: /64".toList] = .error .notANumber ∧
      ¬ReturnsLowestFree "10.0.0.0/30".toList [":: /64".toList] := by
  have hnext : nextFreeHostAddress "10.0.0.0/30".toList ["::a00:1".toList] =
      .ok (some "10.0.0.2".toList) := by decide
  have hthrows : nextFreeHostAddress "10.0.0.0/30".toList [":: /64".toList] = .error .notANumber := by decide
  refine ⟨⟨hnext, fun h => ?_⟩, hthrows, fun h => ?_⟩
  swap
  · obtain ⟨result, hresult⟩ := h.returns
    cases hthrows.symm.trans hresult
  have hfree : IsLeast (freeHosts "10.0.0.0/30".toList ["::a00:1".toList]) 0x0a000001 := by
    refine ⟨⟨⟨.v4, 0x0a000000, 30⟩, ⟨0x0a000001, 0x0a000002⟩, by decide, by decide, by decide,
      by decide, ?_⟩, ?_⟩
    · intro u hu hver
      rw [mem_singleton] at hu
      subst hu
      exact absurd (hver rfl) (by decide)
    · rintro w ⟨c, range, -, hr, h₁, -⟩
      rw [show cidrHostRange "10.0.0.0/30".toList = some ⟨0x0a000001, 0x0a000002⟩ by decide] at hr
      cases hr
      exact h₁
  obtain ⟨c, hc, hret, -⟩ := h.lowest _ hfree
  rw [show parseCidr "10.0.0.0/30".toList = some ⟨.v4, 0x0a000000, 30⟩ by decide] at hc
  cases hc
  rw [hnext] at hret
  cases hret

end TurboPanel.Ip
