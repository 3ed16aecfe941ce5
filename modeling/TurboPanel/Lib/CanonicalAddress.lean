import TurboPanel.Lib.NormalizedAddress

/-!
# One spelling per address

The model of `canonicalIpAddress` of `src/lib/ip-address.ts`. An address is read into its number and
printed again, so texts of one number have one spelling, but an IPv4-mapped address is only
recognised in the spelling `::ffff:` and two groups, and that is the spelling the printer writes. So
a mapped address in any other spelling takes two rounds to become the IPv4 address, and its
canonical form differs from that of the spelling `::ffff:` and two groups
(`canonical_idempotent_iff`, `canonical_eq_iff`).
-/

namespace TurboPanel.Ip

open Option Js

def canonicalIpAddress (value : Text) : Option Text :=
  (normalizeIpAddress value).map fun address =>
    match parseIpVersion address, ipToBigInt? address with
    | some version, some numeric => bigIntToIp numeric version
    | _, _ => address

/-! ## The mapped block -/

variable {version : IpAddressVersion} {n : ℕ} {s : Text}

theorem ipv6HextetsFromBigInt_of_mapped (h : n / 2 ^ 32 = mappedPrefix) :
    ipv6HextetsFromBigInt n = mappedGroups (n % 2 ^ 32 / 2 ^ 16) (n % 2 ^ 16) := by
  have hlow : ∀ m : ℕ, m &&& 0xffff = m % 2 ^ 16 := fun m => Nat.and_two_pow_sub_one_eq_mod m 16
  have hmask : n &&& (2 ^ 128 - 1) = n := by
    rw [Nat.and_two_pow_sub_one_eq_mod]
    rw [mappedPrefix] at h
    omega
  rw [mappedPrefix] at h
  simp only [ipv6HextetsFromBigInt, hmask, hextetLoop, hlow, Nat.shiftRight_eq_div_pow,
    mappedGroups, List.cons.injEq, and_true]
  omega

theorem startsMapped_bigIntToIpv6 (h : n / 2 ^ 32 = mappedPrefix) :
    startsMapped (bigIntToIpv6 n) = true := by
  have hffff : Nat.toDigits 16 0xffff = ['f', 'f', 'f', 'f'] := rfl
  have hbest : longestIpv6ZeroRun (ipv6HextetsFromBigInt n) = ⟨0, 5⟩ := by
    rw [ipv6HextetsFromBigInt_of_mapped h, mappedGroups]
    generalize n % 2 ^ 32 / 2 ^ 16 = x
    generalize n % 2 ^ 16 = y
    by_cases hx : x = 0 <;> by_cases hy : y = 0 <;> simp [longestIpv6ZeroRun, zeroRunLoop, hx, hy]
  rw [@bigIntToIpv6_of_compressed n [] [0xffff, n % 2 ^ 32 / 2 ^ 16, n % 2 ^ 16] _ hbest (by decide)
    (ipv6HextetsFromBigInt_of_mapped h) rfl]
  simp [formatHexHextets, hffff, List.intercalate_cons_cons, startsMapped]

theorem numberOf_mappedGroups_div {x y : ℕ} (hx : x < 2 ^ 16) (hy : y < 2 ^ 16) :
    numberOf (mappedGroups x y) / 2 ^ 32 = mappedPrefix ∧
      numberOf (mappedGroups x y) % 2 ^ 32 = x * 2 ^ 16 + y := by
  rw [numberOf_mappedGroups, mappedPrefix]
  omega

/-! ## Printed addresses -/

theorem normalizeIpAddress_of_printed_mapped (h : n / 2 ^ 32 = mappedPrefix) :
    normalizeIpAddress (bigIntToIpv6 n) = some (bigIntToIpv4 (n % 2 ^ 32)) := by
  rw [normalizeIpAddress_of_mapped (spells_bigIntToIpv6 n) (ipv6HextetsFromBigInt_of_mapped h)
    (startsMapped_bigIntToIpv6 h)]
  refine congrArg (fun v => some (bigIntToIpv4 v)) ?_
  omega

theorem canonicalIpAddress_bigIntToIp {v : ℕ} (hv : v < 2 ^ version.bitWidth) :
    canonicalIpAddress (bigIntToIp v version) =
      if version = .v6 ∧ v / 2 ^ 32 = mappedPrefix then some (bigIntToIpv4 (v % 2 ^ 32))
      else some (bigIntToIp v version) := by
  have hkeep : normalizeIpAddress (bigIntToIp v version) = some (bigIntToIp v version) →
      canonicalIpAddress (bigIntToIp v version) = some (bigIntToIp v version) := by
    intro h
    rw [canonicalIpAddress, h, map_some, parseIpVersion_bigIntToIp,
      ipToBigInt_bigIntToIp hv]
  cases version with
  | v4 => exact (hkeep (normalizeIpAddress_bigIntToIpv4 v)).trans (by simp)
  | v6 =>
    by_cases hin : v / 2 ^ 32 = mappedPrefix
    · rw [canonicalIpAddress, bigIntToIp, normalizeIpAddress_of_printed_mapped hin,
        map_some, parseIpVersion_bigIntToIpv4, ipToBigInt_bigIntToIpv4 (by omega),
        if_pos ⟨rfl, hin⟩]
      rfl
    · rw [if_neg fun h => hin h.2]
      refine hkeep (normalizeIpAddress_of_spells (spells_bigIntToIpv6 v) (.inr ?_))
      intro x y hgroups
      have hmem : ∀ g ∈ mappedGroups x y, g < 2 ^ 16 := fun g hg =>
        lt_of_mem_ipv6HextetsFromBigInt (hgroups ▸ hg)
      have hnum := numberOf_ipv6HextetsFromBigInt hv
      rw [hgroups] at hnum
      rw [← hnum] at hin
      exact hin (numberOf_mappedGroups_div (hmem x (by simp [mappedGroups]))
        (hmem y (by simp [mappedGroups]))).1

/-! ## Idempotence -/

theorem exists_of_normalizeIpAddress {s r : Text} (h : normalizeIpAddress s = some r) :
    ∃ version n, n < 2 ^ version.bitWidth ∧ canonicalIpAddress s = some (bigIntToIp n version) ∧
      (version = .v6 ∧ n / 2 ^ 32 = mappedPrefix ↔ IsUnspelledMapped (candidateOf s)) := by
  have hread : ∃ version n, parseIpVersion r = some version ∧ ipToBigInt? r = some n ∧
      (version = .v6 ∧ n / 2 ^ 32 = mappedPrefix ↔ IsUnspelledMapped (candidateOf s)) := by
    rw [normalizeIpAddress_eq] at h
    cases hpair : hexMapped (candidateOf s) with
    | some pair =>
      obtain ⟨hdotted, hx, hy⟩ := hexDotted_eq hpair
      rw [unwrapMapped_of_hexMapped hpair, Option.some.injEq] at h
      refine ⟨.v4, ofDigits 16 pair.1 * 2 ^ 16 + ofDigits 16 pair.2, ?_, ?_, ?_⟩
      · rw [← h, hdotted, parseIpVersion_bigIntToIpv4]
      · rw [← h, hdotted, ipToBigInt_bigIntToIpv4 (by omega)]
      · refine ⟨fun h => (by cases h.1), fun hu => ?_⟩
        have := hu.version
        rw [parseIpVersion_of_hexMapped hpair] at this
        cases this
    | none =>
      by_cases hu : IsUnspelledMapped (candidateOf s)
      · obtain ⟨hver, ⟨n, hn, hin⟩, hspelled⟩ := hu
        rw [unwrapMapped_of_kept hver hspelled, Option.some.injEq] at h
        rw [← h]
        exact ⟨.v6, n, hver, hn, fun _ => ⟨hver, ⟨n, hn, hin⟩, hspelled⟩, fun _ => ⟨rfl, hin⟩⟩
      · have hgood : ¬IsMisread (candidateOf s) := by
          rintro (hsome | hu')
          · rw [hpair] at hsome
            cases hsome
          · exact hu hu'
        obtain ⟨version, n, hd, hver, hn⟩ := exists_denotes h hgood
        refine ⟨version, n, hver, hn, fun ⟨hv6, hin⟩ => ?_, fun h => absurd h hu⟩
        subst hv6
        cases hd with
        | ipv6 _ _ hother => exact absurd hin hother
  obtain ⟨version, n, hver, hn, hu⟩ := hread
  obtain ⟨m, hm, hn'⟩ := exists_of_parseIpVersion hver
  obtain rfl : n = m := by rw [hn] at hn'; exact Option.some.inj hn'
  refine ⟨version, n, hm, ?_, hu⟩
  rw [canonicalIpAddress, h, map_some, hver, hn]

/-- **Idempotence.** The canonical form is its own canonical form, exactly when the text is no
IPv4-mapped address in another spelling than `::ffff:` and two groups. -/
theorem canonical_idempotent_iff (s : Text) :
    (∀ r, canonicalIpAddress s = some r → canonicalIpAddress r = some r) ↔
      ¬IsUnspelledMapped (candidateOf s) := by
  cases hnorm : normalizeIpAddress s with
  | none =>
    refine ⟨fun _ hu => ?_, fun _ r hr => ?_⟩
    · rw [normalizeIpAddress_eq, unwrapMapped_of_kept hu.version hu.unspelled] at hnorm
      cases hnorm
    · rw [canonicalIpAddress, hnorm] at hr
      cases hr
  | some a =>
    obtain ⟨version, n, hlt, hcanon, hu⟩ := exists_of_normalizeIpAddress hnorm
    rw [hcanon, ← hu]
    simp only [Option.some.injEq, forall_eq']
    rw [canonicalIpAddress_bigIntToIp hlt]
    split_ifs with hin
    · refine iff_of_false (fun heq => ?_) fun h => h hin
      -- an IPv4 text is no IPv6 text
      have hver := parseIpVersion_bigIntToIp n version
      rw [← Option.some.inj heq, parseIpVersion_bigIntToIpv4, hin.1] at hver
      cases hver
    · exact iff_of_true rfl hin

/-! ## Equal canonical forms -/

theorem candidateOf_of_parseIpVersion (h : parseIpVersion s = some version) : candidateOf s = trim s := by
  have htrim : candidateOf s = candidateOf (trim s) := by rw [candidateOf, candidateOf, trim_trim]
  rw [htrim]
  cases version with
  | v4 =>
    obtain ⟨v, -, e, -⟩ := exists_of_parseIpVersion_v4 h
    rw [e, candidateOf_bigIntToIpv4]
  | v6 =>
    obtain ⟨groups, hs⟩ := exists_spells_of_parseIpVersion h
    exact candidateOf_of_spells hs

theorem reading_candidateOf (h : parseIpVersion s = some version) (hn : ipToBigInt? s = some n) :
    parseIpVersion (candidateOf s) = some version ∧ ipToBigInt? (candidateOf s) = some n := by
  rw [candidateOf_of_parseIpVersion h]
  exact ⟨(parseIpVersion_trim s).trans h, (ipToBigInt_trim h).trans hn⟩

/-- Spelled `::ffff:` and two groups. -/
def IsSpelledMapped (text : Text) : Prop :=
  startsMapped text = true ∧ (hexMapped (text.drop 7)).isSome

theorem isUnspelledMapped_iff (h : parseIpVersion s = some version) (hn : ipToBigInt? s = some n) :
    IsUnspelledMapped (candidateOf s) ↔ (version = .v6 ∧ n / 2 ^ 32 = mappedPrefix) ∧
      ¬IsSpelledMapped (candidateOf s) := by
  obtain ⟨hver, hnum⟩ := reading_candidateOf h hn
  refine ⟨fun ⟨h₁, ⟨m, h₂, h₃⟩, h₄⟩ => ⟨⟨?_, ?_⟩, h₄⟩, fun ⟨⟨h₁, h₂⟩, h₃⟩ => ?_⟩
  · rw [hver] at h₁
    exact Option.some.inj h₁
  · rw [hnum, Option.some.injEq] at h₂
    rw [h₂, h₃]
  · exact ⟨h₁ ▸ hver, ⟨n, hnum, h₂⟩, h₃⟩

theorem canonicalIpAddress_of_candidate (hver : parseIpVersion (candidateOf s) = some version)
    (hnum : ipToBigInt? (candidateOf s) = some n) :
    (IsSpelledMapped (candidateOf s) → (version = .v6 ∧ n / 2 ^ 32 = mappedPrefix) ∧
        canonicalIpAddress s = some (bigIntToIp (n % 2 ^ 32) .v4)) ∧
      (¬IsSpelledMapped (candidateOf s) →
        canonicalIpAddress s = some (bigIntToIp n version)) := by
  refine ⟨fun ⟨hstart, hsome⟩ => ?_, fun hspelled => ?_⟩
  · obtain ⟨⟨hi, lo⟩, hpair⟩ := isSome_iff_exists.1 hsome
    have hs := spells_of_hexMapped hstart hpair
    obtain ⟨hdotted, hx, hy⟩ := hexDotted_eq hpair
    obtain ⟨hin, hlow⟩ := numberOf_mappedGroups_div hx hy
    have hv6 := hs.parseIpVersion_eq
    have hn' := hs.ipToBigInt_eq
    rw [hver, Option.some.injEq] at hv6
    rw [hnum, Option.some.injEq] at hn'
    rw [← hn'] at hin hlow
    refine ⟨⟨hv6, hin⟩, ?_⟩
    have hnorm : normalizeIpAddress s = some (hexDotted (hi, lo)) := by
      rw [normalizeIpAddress_eq, unwrapMapped_of_v6 (hv6 ▸ hver), if_pos hstart, hpair]
      rfl
    rw [canonicalIpAddress, hnorm, hdotted, map_some, parseIpVersion_bigIntToIpv4,
      ipToBigInt_bigIntToIpv4 (by omega), hlow]
  · have hnorm : normalizeIpAddress s = some (candidateOf s) := by
      rw [normalizeIpAddress_eq]
      cases version with
      | v4 => exact unwrapMapped_of_v4 hver
      | v6 => exact unwrapMapped_of_kept hver hspelled
    rw [canonicalIpAddress, hnorm, map_some, hver, hnum]

theorem canonicalIpAddress_of_parseIpVersion (h : parseIpVersion s = some version) (hn : ipToBigInt? s = some n) :
    (IsSpelledMapped (candidateOf s) → (version = .v6 ∧ n / 2 ^ 32 = mappedPrefix) ∧
        canonicalIpAddress s = some (bigIntToIp (n % 2 ^ 32) .v4)) ∧
      (¬IsSpelledMapped (candidateOf s) →
        canonicalIpAddress s = some (bigIntToIp n version)) := by
  obtain ⟨hver, hnum⟩ := reading_candidateOf h hn
  exact canonicalIpAddress_of_candidate hver hnum

/-- **Equal canonical forms.** Two accepted texts of one version have the same canonical form
exactly when they have the same number, unless they have the same number and exactly one of them is
an IPv4-mapped address that is not spelled `::ffff:` and two groups. -/
theorem canonical_eq_iff {s t : Text} (hs : parseIpVersion s = some version) (ht : parseIpVersion t = some version) :
    ((canonicalIpAddress s = canonicalIpAddress t ↔ ipToBigInt? s = ipToBigInt? t) ↔
      (ipToBigInt? s = ipToBigInt? t →
        (IsUnspelledMapped (candidateOf s) ↔ IsUnspelledMapped (candidateOf t)))) := by
  obtain ⟨n, hn, hns⟩ := exists_of_parseIpVersion hs
  obtain ⟨m, hm, hmt⟩ := exists_of_parseIpVersion ht
  obtain ⟨hs₁, hs₂⟩ := canonicalIpAddress_of_parseIpVersion hs hns
  obtain ⟨ht₁, ht₂⟩ := canonicalIpAddress_of_parseIpVersion ht hmt
  rw [isUnspelledMapped_iff hs hns, isUnspelledMapped_iff ht hmt, hns, hmt, Option.some.injEq]
  -- an IPv4 text is no IPv6 text
  have hne : ∀ {a b : ℕ}, bigIntToIp a .v4 ≠ bigIntToIp b .v6 := by
    intro a b heq
    have hver := parseIpVersion_bigIntToIp a .v4
    rw [heq, parseIpVersion_bigIntToIp] at hver
    cases hver
  by_cases hps : IsSpelledMapped (candidateOf s) <;> by_cases hpt : IsSpelledMapped (candidateOf t)
  · obtain ⟨⟨-, hin⟩, hcs⟩ := hs₁ hps
    obtain ⟨⟨-, hin'⟩, hct⟩ := ht₁ hpt
    have hmod : ∀ a : ℕ, a % 2 ^ 32 < 2 ^ IpAddressVersion.v4.bitWidth :=
      fun a => Nat.mod_lt a (by decide)
    rw [hcs, hct, Option.some.injEq, bigIntToIp_inj (hmod n) (hmod m)]
    refine iff_of_true ⟨fun h => by omega, fun h => by rw [h]⟩ fun _ => ?_
    exact iff_of_false (fun h => h.2 hps) fun h => h.2 hpt
  · obtain ⟨⟨hv, hin⟩, hcs⟩ := hs₁ hps
    subst hv
    rw [hcs, ht₂ hpt, Option.some.injEq, iff_false_left hne]
    refine ⟨fun h heq => absurd heq h, fun h heq => ?_⟩
    exact ((h heq).2 ⟨⟨rfl, heq ▸ hin⟩, hpt⟩).2 hps
  · obtain ⟨⟨hv, hin⟩, hct⟩ := ht₁ hpt
    subst hv
    rw [hs₂ hps, hct, Option.some.injEq, iff_false_left hne.symm]
    refine ⟨fun h heq => absurd heq h, fun h heq => ?_⟩
    exact ((h heq).1 ⟨⟨rfl, heq ▸ hin⟩, hps⟩).2 hpt
  · rw [hs₂ hps, ht₂ hpt, Option.some.injEq, bigIntToIp_inj hn hm]
    refine iff_of_true Iff.rfl ?_
    rintro rfl
    exact ⟨fun h => ⟨h.1, hpt⟩, fun h => ⟨h.1, hps⟩⟩

/-! ## The round trip -/

/-- **Address text and number.** Every number of a family is printed as an address of that family
and read back. Every accepted text has a number of its family, and texts of one family are printed
alike when their numbers are equal. The canonical form is its own canonical form, and equal exactly
for equal numbers, but where an IPv4-mapped address is spelled otherwise than `::ffff:` and two
groups. -/
theorem address_round_trip (version : IpAddressVersion) (s t : Text) :
    (∀ v < 2 ^ version.bitWidth, parseIpVersion (bigIntToIp v version) = some version ∧
      ipToBigInt? (bigIntToIp v version) = some v) ∧
    (parseIpVersion s = some version → ∃ n < 2 ^ version.bitWidth,
      ipToBigInt? s = some n ∧ ∀ m, parseIpVersion t = some version → ipToBigInt? t = some m →
        (bigIntToIp n version = bigIntToIp m version ↔ n = m)) ∧
    ((∀ r, canonicalIpAddress s = some r → canonicalIpAddress r = some r) ↔
      ¬IsUnspelledMapped (candidateOf s)) ∧
    (parseIpVersion s = some version → parseIpVersion t = some version →
      ((canonicalIpAddress s = canonicalIpAddress t ↔ ipToBigInt? s = ipToBigInt? t) ↔
        (ipToBigInt? s = ipToBigInt? t →
          (IsUnspelledMapped (candidateOf s) ↔ IsUnspelledMapped (candidateOf t))))) := by
  refine ⟨fun v hv => ⟨parseIpVersion_bigIntToIp v version, ipToBigInt_bigIntToIp hv⟩,
    fun hs => ?_, canonical_idempotent_iff s, canonical_eq_iff⟩
  obtain ⟨n, hn, hns⟩ := exists_of_parseIpVersion hs
  refine ⟨n, hn, hns, fun m ht hm => ?_⟩
  obtain ⟨k, hk, hkt⟩ := exists_of_parseIpVersion ht
  obtain rfl : m = k := by rw [hm] at hkt; exact Option.some.inj hkt
  exact bigIntToIp_inj hn hk

theorem round_trip_loopback :
    ipToBigInt? (bigIntToIp 1 .v6) = some 1 ∧ (∃ n, ipToBigInt? "127.0.0.1".toList = some n) ∧
      ¬(canonicalIpAddress "0:0:0:0:0:ffff:7f00:1".toList =
          canonicalIpAddress "::ffff:7f00:1".toList ↔
        ipToBigInt? "0:0:0:0:0:ffff:7f00:1".toList = ipToBigInt? "::ffff:7f00:1".toList) := by
  obtain ⟨htrip, -, -, heq⟩ :=
    address_round_trip .v6 "0:0:0:0:0:ffff:7f00:1".toList "::ffff:7f00:1".toList
  obtain ⟨n, -, hn, -⟩ := (address_round_trip .v4 "127.0.0.1".toList "127.0.0.1".toList).2.1 (by decide)
  refine ⟨(htrip 1 (by decide)).2, ⟨n, hn⟩, fun h => ?_⟩
  have hfull := spells_mapped_loopback_full
  have hshort := spells_mapped_loopback_short
  have hnum : ipToBigInt? "0:0:0:0:0:ffff:7f00:1".toList = ipToBigInt? "::ffff:7f00:1".toList := by
    rw [hfull.ipToBigInt_eq, hshort.ipToBigInt_eq]
  have hsame := (heq hfull.parseIpVersion_eq hshort.parseIpVersion_eq).1 h hnum
  have hun : IsUnspelledMapped (candidateOf "0:0:0:0:0:ffff:7f00:1".toList) := by
    rw [candidateOf_of_spells hfull]
    refine ⟨hfull.parseIpVersion_eq, ⟨_, hfull.ipToBigInt_eq, ?_⟩, fun hs => ?_⟩
    · exact (numberOf_mappedGroups_div (by decide) (by decide)).1
    · cases hs.1
  refine (hsame.1 hun).unspelled ?_
  rw [candidateOf_of_spells hshort]
  decide

/-- The canonical text of a mapped address has another one. -/
theorem mapped_loopback_not_idempotent :
    canonicalIpAddress "0:0:0:0:0:ffff:7f00:1".toList = some "::ffff:7f00:1".toList ∧
      canonicalIpAddress "::ffff:7f00:1".toList = some "127.0.0.1".toList ∧
      ¬∀ s r, canonicalIpAddress s = some r → canonicalIpAddress r = some r := by
  have hfirst : canonicalIpAddress "0:0:0:0:0:ffff:7f00:1".toList = some "::ffff:7f00:1".toList := by
    decide
  have hsecond : canonicalIpAddress "::ffff:7f00:1".toList = some "127.0.0.1".toList := by decide
  refine ⟨hfirst, hsecond, fun h => ?_⟩
  have htwice := h _ _ hfirst
  rw [hsecond] at htwice
  cases htwice

end TurboPanel.Ip
