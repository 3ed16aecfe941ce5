import TurboPanel.Arith.BitGroups
import TurboPanel.Lib.CidrSets
import TurboPanel.Managed.LoginSources

/-!
# What a source pattern matches

The database proxy compares the text of a client address with a pattern: the pattern is the text, or
it ends with `%` and what stands before is a start of the text. A start that ends with a separator
is a list of first groups, in a dotted IPv4 address as in an IPv6 address with its zero groups left
out (`matches_octets_iff`, `matches_groups_iff`). So a range is matched exactly
(`cidrToSourcePrefix_exact`), and so is what an `address:` entry names (`source_patterns_exact`).
-/

namespace TurboPanel.LoginSources

open Js Ip BitGroups List

/-- The proxy takes a client with this address for the pattern. -/
def Matches (pattern address : Text) : Prop :=
  pattern = address ∨ ∃ start, pattern = start ++ ['%'] ∧ start <+: address

variable {version : IpAddressVersion} {cidr : ParsedCidr} {value : Text} {n : ℕ} {p : Text}

theorem percent_not_mem : '%' ∉ bigIntToIp n version := by
  cases version with
  | v4 =>
    rw [bigIntToIp, bigIntToIpv4_eq]
    exact not_mem_dotted (by decide) (by decide)
  | v6 => exact (spells_bigIntToIpv6 n).not_mem_text (by decide) (by decide)

theorem matches_start_iff {start : Text} :
    Matches (start ++ ['%']) (bigIntToIp n version) ↔ start <+: bigIntToIp n version := by
  constructor
  · rintro (h | ⟨start', h, hprefix⟩)
    · exact absurd (h ▸ mem_append_right start mem_cons_self) percent_not_mem
    · rw [append_cancel_right h]
      exact hprefix
  · exact fun h => .inr ⟨start, rfl, h⟩

theorem matches_address_iff {version version' : IpAddressVersion} {n m : ℕ}
    (hn : n < 2 ^ version.bitWidth) (hm : m < 2 ^ version'.bitWidth) :
    Matches (bigIntToIp m version') (bigIntToIp n version) ↔ version = version' ∧ n = m := by
  constructor
  · rintro (h | ⟨start, h, -⟩)
    · have hversion := parseIpVersion_bigIntToIp n version
      rw [← h, parseIpVersion_bigIntToIp, Option.some.injEq] at hversion
      subst hversion
      have hnumber := ipToBigInt_bigIntToIp hn
      rw [← h, ipToBigInt_bigIntToIp hm, Option.some.injEq] at hnumber
      exact ⟨rfl, hnumber.symm⟩
    · exact absurd (h ▸ mem_append_right start mem_cons_self) percent_not_mem
  · rintro ⟨rfl, rfl⟩
    exact .inl rfl

/-! ## First groups -/

theorem octetsOf_eq_groups (n : ℕ) : octetsOf n = groups 8 4 n := by
  simp only [octetsOf, groups, nil_append, cons_append, List.cons.injEq, and_true]
  omega

theorem hextetLoop_eq_groups (k n : ℕ) (hextets : List ℕ) :
    hextetLoop k n hextets = groups 16 k n ++ hextets := by
  induction k generalizing n hextets with
  | zero => rfl
  | succ k ih =>
    rw [hextetLoop, ih, groups, Nat.shiftRight_eq_div_pow, append_assoc, singleton_append]
    exact congrArg (fun g => groups 16 k (n / 2 ^ 16) ++ g :: hextets)
      (Nat.and_two_pow_sub_one_eq_mod n 16)

theorem hextets_eq_groups (hn : n < 2 ^ 128) : ipv6HextetsFromBigInt n = groups 16 8 n := by
  rw [ipv6HextetsFromBigInt, hextetLoop_eq_groups, append_nil, Nat.and_two_pow_sub_one_eq_mod,
    Nat.mod_eq_of_lt hn]

/-- The pattern of first octets. -/
def octetsPattern (octets : List ℕ) : Text :=
  ['.'].intercalate (octets.map (Nat.toDigits 10)) ++ ['.', '%']

/-- The pattern of first groups. -/
def groupsPattern (groups : List ℕ) : Text :=
  [':'].intercalate (groups.map (Nat.toDigits 16)) ++ [':', '%']

theorem pattern_eq_start {c : Char} {parts : List Text} (hne : parts ≠ []) :
    [c].intercalate parts ++ [c, '%'] = (parts.flatMap fun p => p ++ [c]) ++ ['%'] := by
  rw [flatMap_append_singleton hne, append_assoc]
  rfl

theorem not_start_of_not_mem {c : Char} {parts : List Text} (hne : parts ≠ []) {text : Text}
    (hc : c ∉ text) : ¬(parts.flatMap fun p => p ++ [c]) <+: text := by
  rw [flatMap_append_singleton hne]
  exact not_append_cons_isPrefix hc

/-- **A pattern of octets matches the IPv4 addresses that begin with them.** -/
theorem matches_octets_iff {octets : List ℕ} (hne : octets ≠ []) (hlen : octets.length ≤ 3)
    (version : IpAddressVersion) (n : ℕ) :
    Matches (octetsPattern octets) (bigIntToIp n version) ↔
      version = .v4 ∧ (octetsOf n).take octets.length = octets := by
  have hmap : octets.map (Nat.toDigits 10) ≠ [] := by simpa using hne
  have hdots : ∀ {l : List ℕ}, ∀ p ∈ l.map (Nat.toDigits 10), '.' ∉ p := by
    intro l p hp
    obtain ⟨m, -, rfl⟩ := mem_map.1 hp
    exact not_mem_decimal (by decide)
  have hinj : Function.Injective (Nat.toDigits 10) := fun _ _ => toDigits_injective (by decide) (by decide)
  rw [octetsPattern, pattern_eq_start hmap, matches_start_iff]
  cases version with
  | v4 =>
    rw [bigIntToIp, bigIntToIpv4_eq, dotted,
      flatMap_isPrefix_intercalate hdots hdots (by simp [octetsOf]),
      prefix_map_iff_of_injective hinj,
      prefix_iff_eq_take, eq_comm]
    have hlt : octets.length < (octetsOf n).length := Nat.lt_succ_of_le hlen
    simp [hlt]
  | v6 =>
    refine iff_of_false (not_start_of_not_mem hmap ?_) fun h => by cases h.1
    exact (spells_bigIntToIpv6 n).not_mem_text (by decide) (by decide)

theorem colon_not_mem_of_hextets {l : List ℕ} : ∀ p ∈ l.map (Nat.toDigits 16), ':' ∉ p := by
  intro p hp hmem
  obtain ⟨m, -, rfl⟩ := mem_map.1 hp
  exact absurd (isDigitOf_of_mem_toDigits (by decide) (by decide) ':' hmem) (by decide)

theorem prefix_before_zeros {before after groups : List ℕ} {k : ℕ} (hk : 0 < k)
    (hzero : ∀ g ∈ groups, g ≠ 0) :
    groups <+: before ++ List.replicate k 0 ++ after ↔ groups <+: before := by
  refine ⟨fun h => ?_, fun h => h.trans ?_⟩
  · rcases le_total groups.length before.length with hle | hle
    · rw [append_assoc] at h
      exact prefix_of_prefix_length_le h (prefix_append _ _) hle
    · obtain ⟨k, rfl⟩ := Nat.exists_eq_succ_of_ne_zero hk.ne'
      rcases Nat.lt_or_ge before.length groups.length with hlt | hge
      · have hget := h.getElem hlt
        have hat : (before ++ List.replicate (k + 1) 0 ++ after)[before.length]? = some 0 := by
          rw [append_assoc, getElem?_append_right le_rfl, Nat.sub_self, replicate_succ]
          rfl
        have hsome := getElem?_eq_getElem (Nat.lt_of_lt_of_le hlt h.length_le)
        rw [hat, Option.some.injEq] at hsome
        exact absurd (hget.trans hsome.symm) (hzero _ (getElem_mem hlt))
      · rw [append_assoc] at h
        exact prefix_of_prefix_length_le h (prefix_append _ _) hge
  · rw [append_assoc]
    exact prefix_append _ _

/-- **A pattern of groups that are not zero matches the IPv6 addresses that begin with them.** -/
theorem matches_groups_iff {groups : List ℕ} (hne : groups ≠ []) (hlen : groups.length ≤ 7)
    (hzero : ∀ g ∈ groups, g ≠ 0) (version : IpAddressVersion) (n : ℕ) :
    Matches (groupsPattern groups) (bigIntToIp n version) ↔
      version = .v6 ∧ (ipv6HextetsFromBigInt n).take groups.length = groups := by
  have hmap : groups.map (Nat.toDigits 16) ≠ [] := by simpa using hne
  have height := length_ipv6HextetsFromBigInt n
  rw [groupsPattern, pattern_eq_start hmap, matches_start_iff]
  cases version with
  | v4 =>
    refine iff_of_false (not_start_of_not_mem hmap ?_) fun h => by cases h.1
    rw [bigIntToIp, bigIntToIpv4_eq]
    exact not_mem_dotted (by decide) (by decide)
  | v6 =>
    rw [bigIntToIp, ← prefix_iff_eq_take.trans eq_comm]
    have hinj : Function.Injective (Nat.toDigits 16) := fun _ _ =>
      toDigits_injective (by decide) (by decide)
    by_cases htwo : (longestIpv6ZeroRun (ipv6HextetsFromBigInt n)).length < 2
    · simp only [bigIntToIpv6, if_pos htwo, formatHexHextets_eq, colonJoin]
      rw [flatMap_isPrefix_intercalate colon_not_mem_of_hextets colon_not_mem_of_hextets
        (by simpa using ne_nil_of_length_eq_add_one height),
        prefix_map_iff_of_injective hinj]
      have hlt : groups.length < (ipv6HextetsFromBigInt n).length := by omega
      simp [hlt]
    · obtain ⟨before, after, hsplit, hstart⟩ := isIn_longestIpv6ZeroRun (ipv6HextetsFromBigInt n)
      rw [bigIntToIpv6_of_compressed rfl (by omega) hsplit hstart, formatHexHextets_eq, colonJoin,
        flatMap_isPrefix_gap (fun p hp => ⟨?_, colon_not_mem_of_hextets p hp⟩) colon_not_mem_of_hextets,
        prefix_map_iff_of_injective hinj, hsplit, prefix_before_zeros (by omega) hzero]
      · simp
      · obtain ⟨m, -, rfl⟩ := mem_map.1 hp
        exact Nat.toDigits_ne_nil

/-! ## One address -/

/-- An IPv4 address with blanks left around it. -/
def IsPaddedIpv4 (text : Text) : Prop := parseIpVersion text = some .v4 ∧ trim text ≠ text

theorem unwrapMapped_cases {candidate r : Text} (h : unwrapMapped candidate = some r) :
    r = candidate ∨ ∃ v, r = bigIntToIpv4 v := by
  have hrest : ∀ a : Text, ((hexMapped a).map hexDotted).orElse (fun _ =>
      if isValidIpAddress candidate then some candidate else none) = some r →
      r = candidate ∨ ∃ v, r = bigIntToIpv4 v := by
    intro a ha
    cases hpair : hexMapped a with
    | some pair =>
      rw [hpair] at ha
      exact .inr ⟨_, (Option.some.inj ha).symm.trans (hexDotted_eq hpair).1⟩
    | none =>
      rw [hpair] at ha
      simp only [Option.map_none, Option.orElse, Option.ite_none_right_eq_some, Option.some.injEq] at ha
      exact .inl ha.2.symm
  cases hstart : startsMapped candidate with
  | true =>
    rw [unwrapMapped_of_start hstart] at h
    by_cases hquad : isIpv4Address (candidate.drop 7) = true
    · rw [if_pos hquad] at h
      obtain ⟨v, -, hv⟩ := isIpv4Address_iff.1 hquad
      exact .inr ⟨v, (Option.some.inj h).symm.trans hv⟩
    · rw [if_neg hquad] at h
      exact hrest _ h
  | false =>
    rw [unwrapMapped_of_not_start hstart] at h
    exact hrest _ h

theorem standardAddress_eq {raw : Text} (hpad : ¬IsPaddedIpv4 (candidateOf raw)) :
    standardAddress raw = canonicalIpAddress raw := by
  rw [standardAddress, canonicalIpAddress]
  cases hnorm : normalizeIpAddress raw with
  | none => rfl
  | some r =>
    rw [Option.bind_some, Option.map_some]
    rcases hver : parseIpVersion r with _ | (_ | _)
    · simp
    rotate_left
    · obtain ⟨n, -, hn⟩ := exists_of_parseIpVersion hver
      simp [hn]
    · obtain ⟨v, hv, htrim, hn⟩ := exists_of_parseIpVersion_v4 hver
      have hr : r = bigIntToIpv4 v := by
        rcases unwrapMapped_cases ((normalizeIpAddress_eq raw).symm.trans hnorm) with rfl | ⟨u, rfl⟩
        · by_contra hne
          exact hpad ⟨hver, fun h => hne (h.symm.trans htrim)⟩
        · rw [← htrim, trim_bigIntToIpv4]
      simp only [hn, ne_eq, Option.some.injEq, reduceCtorEq, not_false_eq_true, if_true]
      exact hr

theorem standardAddress_of_padded {raw : Text} (hpad : IsPaddedIpv4 (candidateOf raw)) :
    standardAddress raw = some (candidateOf raw) := by
  rw [standardAddress, normalizeIpAddress_eq, unwrapMapped_of_v4 hpad.1, Option.bind_some, hpad.1,
    if_pos (by simp)]

/-- The address that a text without blanks names: an address spelled `::ffff:` and two groups, or
`::ffff:` and a quad, is the IPv4 address in it. -/
inductive Names (text : Text) : IpAddressVersion → ℕ → Prop
  | itself {version : IpAddressVersion} {n : ℕ} (version_eq : parseIpVersion text = some version)
      (number : ipToBigInt? text = some n) (plain : ¬IsSpelledMapped text) : Names text version n
  | mapped {n : ℕ} (number : ipToBigInt? text = some n) (spelled : IsSpelledMapped text) :
      Names text .v4 (n % 2 ^ 32)
  | quad {n : ℕ} (start : startsMapped text = true) (dotted : isIpv4Address (text.drop 7) = true)
      (number : ipToBigInt? (text.drop 7) = some n) : Names text .v4 n

/-- **An address is kept in its short form**: the pattern is the text of what the entry names,
unless it is a bare pair of groups or has blanks left around it. -/
theorem standardAddress_names {raw r : Text} (h : standardAddress raw = some r)
    (hpad : ¬IsPaddedIpv4 (candidateOf raw)) (hpair : hexMapped (candidateOf raw) = none) :
    ∃ version n, n < 2 ^ version.bitWidth ∧ r = bigIntToIp n version ∧
      Names (candidateOf raw) version n := by
  rw [standardAddress_eq hpad] at h
  cases hver : parseIpVersion (candidateOf raw) with
  | some version =>
    obtain ⟨n, hn, hnum⟩ := exists_of_parseIpVersion hver
    obtain ⟨hmapped, hplain⟩ := canonicalIpAddress_of_candidate hver hnum
    by_cases hspelled : IsSpelledMapped (candidateOf raw)
    · rw [(hmapped hspelled).2, Option.some.injEq] at h
      exact ⟨.v4, n % 2 ^ 32, Nat.mod_lt _ (by positivity), h.symm, .mapped hnum hspelled⟩
    · rw [hplain hspelled, Option.some.injEq] at h
      exact ⟨version, n, hn, h.symm, .itself hver hnum hspelled⟩
  | none =>
    rw [canonicalIpAddress, normalizeIpAddress_eq, unwrapMapped_of_none hver hpair] at h
    by_cases hquad : startsMapped (candidateOf raw) ∧ isIpv4Address ((candidateOf raw).drop 7)
    · rw [if_pos hquad] at h
      obtain ⟨v, hv, htext⟩ := isIpv4Address_iff.1 hquad.2
      have hnum : ipToBigInt? ((candidateOf raw).drop 7) = some v := by
        rw [htext, ipToBigInt_bigIntToIpv4 hv]
      rw [Option.map_some, hnum, htext, parseIpVersion_bigIntToIpv4, Option.some.injEq] at h
      exact ⟨.v4, v, hv, h.symm, .quad hquad.1 hquad.2 hnum⟩
    · rw [if_neg hquad] at h
      cases h

/-! ## Typed prefixes -/

theorem prefixGroups_eq_some {separator : Char} {group : Text → Bool} {max : ℕ} {groups : List Text}
    (hsep : ∀ p, group p = true → separator ∉ p) :
    prefixGroups separator group max value = some groups ↔
      value = [separator].intercalate groups ++ [separator, '%'] ∧ groups ≠ [] ∧
        groups.length ≤ max ∧ ∀ p ∈ groups, group p = true := by
  constructor
  · intro h
    rw [prefixGroups] at h
    split_ifs at h with hcond
    obtain ⟨hlast, hempty, hpos, hmax, hall⟩ := hcond
    cases h
    have hne := length_pos_iff.1 hpos
    refine ⟨?_, hne, hmax, all_eq_true.1 hall⟩
    have hjoin : [separator].intercalate (value.dropLast.splitOn separator) = value.dropLast :=
      intercalate_splitOn separator
    have hvalue := dropLast_append_getLast? '%' hlast
    have hparts := dropLast_append_getLast? [] hempty
    rw [← hparts, intercalate_concat_nil] at hjoin
    rw [pattern_eq_start hne, hjoin, hvalue]
  · rintro ⟨rfl, hne, hmax, hall⟩
    have hsplit : ((groups.flatMap fun p => p ++ [separator]).splitOn separator) = groups ++ [[]] := by
      rw [← intercalate_concat_nil]
      refine splitOn_intercalate separator (fun p hp => ?_) (by simp)
      rcases mem_append.1 hp with hp | hp
      · exact hsep p (hall p hp)
      · rw [mem_singleton.1 hp]
        exact not_mem_nil
    rw [pattern_eq_start hne, prefixGroups, dropLast_concat, hsplit, dropLast_concat, if_pos]
    exact ⟨by simp, by simp, length_pos_iff.2 hne, hmax, all_eq_true.2 hall⟩

theorem dot_not_mem_of_isOctetDigits (h : isOctetDigits p = true) : '.' ∉ p := by
  simp only [isOctetDigits, Bool.and_eq_true, all_eq_true] at h
  exact fun hdot => absurd (h.2 '.' hdot) (by decide)

theorem colon_not_mem_of_isIpv6Hextet (h : isIpv6Hextet p = true) : ':' ∉ p :=
  (spellsHextet_of_isIpv6Hextet h).not_mem (by decide)

theorem groupNumber_eq (h : isIpv6Hextet p = true) : groupNumber p = ofDigits 16 p := by
  rw [groupNumber, parseInt_of_isIpv6Hextet h]

theorem toDigits_of_octetInRange (h : isOctetDigits p = true) (hrange : octetInRange p = true) :
    Nat.toDigits 10 (ofDigits 10 p) = p := by
  simp only [isOctetDigits, octetInRange, Bool.and_eq_true, Bool.or_eq_true, decide_eq_true_eq,
    all_eq_true, beq_iff_eq, bne_iff_ne] at h hrange
  exact toDigits_ofDigits (length_pos_iff.1 h.1.1) h.2 hrange.2

/-! ## Ranges -/

theorem slash_not_mem_of_parseIpVersion {l : Text} (h : parseIpVersion l = some version) : '/' ∉ l := by
  have htrim : '/' ∉ trim l := by
    cases version with
    | v4 =>
      obtain ⟨v, -, htext, -⟩ := exists_of_parseIpVersion_v4 h
      rw [htext, bigIntToIpv4_eq]
      exact not_mem_dotted (by decide) (by decide)
    | v6 =>
      obtain ⟨groups, hs⟩ := exists_spells_of_parseIpVersion h
      exact hs.not_mem_text (by decide) (by decide)
  obtain ⟨w, r, hw, hr, hl⟩ := exists_eq_append_trim l
  rw [hl, mem_append, mem_append]
  rintro ((hmem | hmem) | hmem)
  · exact absurd (hw _ hmem) (by decide)
  · exact htrim hmem
  · exact absurd (hr _ hmem) (by decide)

theorem beforeSlash_of_parseCidr (h : parseCidr value = some cidr) :
    parseIpVersion (beforeSlash value) = some cidr.version ∧ ∃ b < 2 ^ cidr.version.bitWidth,
      ipToBigInt? (beforeSlash value) = some b ∧ cidr.base = b / 2 ^ cidr.hostBits * 2 ^ cidr.hostBits := by
  obtain ⟨address, bits, htext, -, hver, -, -, -, b, hb, hbase⟩ := parseCidr_eq_some.1 h
  have hslash := slash_not_mem_of_parseIpVersion hver
  obtain ⟨w, r, hw, -, hvalue⟩ := exists_eq_append_trim value
  have hbefore : beforeSlash value = w ++ address := by
    have hw' : '/' ∉ w := fun hmem => absurd (hw _ hmem) (by decide)
    have hsplit : value = (w ++ address) ++ '/' :: (bits ++ r) := by
      rw [hvalue, htext]
      simp
    rw [beforeSlash, hsplit, splitOn_append_cons_self_of_not_mem]
    · rfl
    · rw [mem_append]
      exact not_or.2 ⟨hw', hslash⟩
  have htrim : trim (w ++ address) = trim address := by
    obtain ⟨w', r', hw', hr', haddress⟩ := exists_eq_append_trim address
    have hne : trim address ≠ [] := by
      intro hnil
      rw [← parseIpVersion_trim, hnil] at hver
      change none = _ at hver
      cases hver
    have hpadded : w ++ address = (w ++ w') ++ trim address ++ r' := by
      conv_lhs => rw [haddress]
      simp
    rw [hpadded]
    refine trim_padded (fun c hc => ?_) hr' (head?_trim address) (getLast?_trim address) hne
    exact (mem_append.1 hc).elim (hw c) (hw' c)
  have hver' : parseIpVersion (w ++ address) = some cidr.version := by
    rw [← parseIpVersion_trim, htrim, parseIpVersion_trim, hver]
  obtain ⟨n, hn, hnum⟩ := exists_of_parseIpVersion hver
  obtain rfl : b = n := Option.some.inj (hb.symm.trans hnum)
  rw [hbefore, ← ipToBigInt_trim hver', htrim, ipToBigInt_trim hver]
  exact ⟨hver', b, hn, hb, by rw [hbase, shiftRight_shiftLeft]⟩

/-- An address with its version, as a client has one. -/
abbrev Address := IpAddressVersion × ℕ

/-- The addresses of a range. -/
def cidrAddresses (cidr : ParsedCidr) : Set Address := {a | a.1 = cidr.version ∧ a.2 ∈ cidr.numbers}

def startsWithOctets (octets : List ℕ) : Set Address :=
  {a | a.1 = .v4 ∧ (octetsOf a.2).take octets.length = octets}

def startsWithGroups (groups : List ℕ) : Set Address :=
  {a | a.1 = .v6 ∧ (ipv6HextetsFromBigInt a.2).take groups.length = groups}

/-- A pattern matches the addresses of a set and no others. -/
def MatchesExactly (pattern : Text) (addresses : Set Address) : Prop :=
  ∀ version n, n < 2 ^ version.bitWidth →
    (Matches pattern (bigIntToIp n version) ↔ (version, n) ∈ addresses)

theorem matchesExactly_address (hn : n < 2 ^ version.bitWidth) :
    MatchesExactly (bigIntToIp n version) {(version, n)} := by
  intro version' m hm
  rw [matches_address_iff hm hn, Set.mem_singleton_iff, Prod.mk.injEq]

theorem matchesExactly_octets {octets : List ℕ} (hne : octets ≠ []) (hlen : octets.length ≤ 3) :
    MatchesExactly (octetsPattern octets) (startsWithOctets octets) :=
  fun version n _ => matches_octets_iff hne hlen version n

theorem matchesExactly_groups {groups : List ℕ} (hne : groups ≠ []) (hlen : groups.length ≤ 7)
    (hzero : ∀ g ∈ groups, g ≠ 0) :
    MatchesExactly (groupsPattern groups) (startsWithGroups groups) :=
  fun version n _ => matches_groups_iff hne hlen hzero version n

theorem mem_numbers_iff (h : parseCidr value = some cidr) :
    n ∈ cidr.numbers ↔ n / 2 ^ cidr.hostBits = cidr.base / 2 ^ cidr.hostBits := by
  have hpos : 0 < 2 ^ cidr.hostBits := by positivity
  obtain ⟨k, hk⟩ := aligned_of_parseCidr h
  rw [ParsedCidr.numbers, Blocks.mem_block_iff_div hpos ⟨k, hk⟩, hk, Nat.mul_div_cancel_left _ hpos,
    Nat.mul_comm]
  exact ⟨fun heq => Nat.eq_of_mul_eq_mul_left hpos heq, fun heq => heq ▸ rfl⟩

theorem base_lt_of_parseCidr (h : parseCidr value = some cidr) :
    cidr.base < 2 ^ cidr.version.bitWidth := by
  obtain ⟨-, b, hb, -, hbase⟩ := beforeSlash_of_parseCidr h
  rw [hbase]
  exact (Nat.div_mul_le_self b _).trans_lt hb

theorem mem_numbers_iff_take (h : parseCidr value = some cidr) {w k j : ℕ} (hwidth : cidr.version.bitWidth = w * k)
    (hj : j ≤ k) (hpre : cidr.prefixLength = w * j) (hn : n < 2 ^ (w * k)) :
    n ∈ cidr.numbers ↔ (groups w k n).take j = (groups w k cidr.base).take j := by
  have hbase := base_lt_of_parseCidr h
  rw [hwidth] at hbase
  rw [mem_numbers_iff h, take_groups_eq_iff hj hn hbase, ParsedCidr.hostBits, hwidth, hpre,
    Nat.mul_sub]

theorem octets_of_base {base : ℕ} :
    ([24, 16, 8, 0].map fun shift => (base >>> shift) &&& 0xff) = octetsOf base := by
  have hbyte : ∀ m : ℕ, m &&& 0xff = m % 256 := fun m => Nat.and_two_pow_sub_one_eq_mod m 8
  simp only [map_cons, map_nil, hbyte, Nat.shiftRight_eq_div_pow, Nat.pow_zero, Nat.div_one,
    octetsOf]

theorem ipv6Groups_eq {base : ℕ} (h : base < 2 ^ 128) : ipv6Groups base = ipv6HextetsFromBigInt base := by
  rw [hextets_eq_groups h, ipv6Groups, groups_eq_map]
  refine map_congr_left fun i _ => ?_
  have hplace : 112 - 16 * i = 16 * (8 - 1 - i) := by omega
  rw [hplace, Nat.shiftRight_eq_div_pow]
  exact Nat.and_two_pow_sub_one_eq_mod _ 16

/-- What a range is rewritten to. -/
inductive RangePattern (value : Text) (cidr : ParsedCidr) : Text → Prop
  | host {pattern : Text} (host : cidr.hostBits = 0)
      (text : pattern = (standardAddress (beforeSlash value)).getD (beforeSlash value)) :
      RangePattern value cidr pattern
  | octets {k : ℕ} (version : cidr.version = .v4) (length : cidr.prefixLength = 8 * k) (pos : 0 < k)
      (le : k ≤ 3) : RangePattern value cidr (octetsPattern ((octetsOf cidr.base).take k))
  | groups {k : ℕ} (version : cidr.version = .v6) (length : cidr.prefixLength = 16 * k) (pos : 0 < k)
      (le : k ≤ 7) (nonzero : ∀ g ∈ (ipv6HextetsFromBigInt cidr.base).take k, g ≠ 0) :
      RangePattern value cidr (groupsPattern ((ipv6HextetsFromBigInt cidr.base).take k))

theorem rangePattern_of_ok {value pattern : Text} (h : cidrToSourcePrefix value = .ok pattern) :
    ∃ cidr, parseCidr value = some cidr ∧ RangePattern value cidr pattern := by
  rw [cidrToSourcePrefix] at h
  split at h
  · cases h
  · rename_i cidr hcidr
    obtain ⟨_, _, -, -, -, -, -, hle, -⟩ := parseCidr_eq_some.1 hcidr
    refine ⟨cidr, hcidr, ?_⟩
    by_cases hhost : cidr.hostBits = 0
    · rw [if_pos hhost] at h
      exact .host hhost (Except.ok.inj h).symm
    · rw [if_neg hhost] at h
      rw [ParsedCidr.hostBits] at hhost
      cases hversion : cidr.version with
      | v4 =>
        rw [hversion] at h hhost hle
        change 32 - cidr.prefixLength ≠ 0 at hhost
        dsimp only at h
        split_ifs at h with hwhole
        have hdvd := Nat.div_add_mod cidr.prefixLength 8
        rw [octets_of_base] at h
        rw [← Except.ok.inj h]
        exact .octets hversion (by omega) (by omega) (by omega)
      | v6 =>
        rw [hversion] at h hhost hle
        change 128 - cidr.prefixLength ≠ 0 at hhost
        dsimp only at h
        have hbase := base_lt_of_parseCidr hcidr
        rw [hversion] at hbase
        split_ifs at h with hwhole hzero
        have hdvd := Nat.div_add_mod cidr.prefixLength 16
        rw [ipv6Groups_eq hbase] at h hzero
        rw [← Except.ok.inj h]
        refine .groups hversion (by omega) (by omega) (by omega) fun g hg hg0 => hzero ?_
        rw [contains_iff_mem, ← hg0]
        exact hg

/-- The range of one address that is spelled `::ffff:` and two groups. -/
def IsMappedHost (value : Text) (cidr : ParsedCidr) : Prop :=
  cidr.hostBits = 0 ∧ IsSpelledMapped (candidateOf (beforeSlash value))

theorem not_padded_of_parseIpVersion {s : Text} (h : parseIpVersion s = some version) :
    ¬IsPaddedIpv4 (candidateOf s) := by
  rintro ⟨-, hne⟩
  rw [candidateOf_of_parseIpVersion h] at hne
  exact hne (trim_trim s)

theorem host_pattern (h : parseCidr value = some cidr) (hhost : cidr.hostBits = 0) :
    (IsSpelledMapped (candidateOf (beforeSlash value)) →
        standardAddress (beforeSlash value) = some (bigIntToIp (cidr.base % 2 ^ 32) .v4)) ∧
      (¬IsSpelledMapped (candidateOf (beforeSlash value)) →
        standardAddress (beforeSlash value) = some (bigIntToIp cidr.base cidr.version)) := by
  obtain ⟨hver, b, hb, hnum, hbase⟩ := beforeSlash_of_parseCidr h
  rw [hhost, Nat.pow_zero, Nat.div_one, Nat.mul_one] at hbase
  rw [standardAddress_eq (not_padded_of_parseIpVersion hver), hbase]
  obtain ⟨hmapped, hplain⟩ := canonicalIpAddress_of_parseIpVersion hver hnum
  exact ⟨fun hspelled => (hmapped hspelled).2, hplain⟩

theorem cidrAddresses_of_host (h : parseCidr value = some cidr) (hhost : cidr.hostBits = 0) :
    cidrAddresses cidr = {(cidr.version, cidr.base)} := by
  ext ⟨version, n⟩
  simp only [cidrAddresses, Set.mem_ofPred_eq, Set.mem_singleton_iff, Prod.mk.injEq, mem_numbers_iff h,
    hhost, Nat.pow_zero, Nat.div_one]

/-- **A range that is taken is matched exactly**: by the addresses in it, of its family. The range
of one address that is spelled `::ffff:` and two groups is the IPv4 address in it. -/
theorem cidrToSourcePrefix_exact {value pattern : Text} (h : cidrToSourcePrefix value = .ok pattern) :
    ∃ cidr, parseCidr value = some cidr ∧
      (¬IsMappedHost value cidr → MatchesExactly pattern (cidrAddresses cidr)) ∧
      (IsMappedHost value cidr → MatchesExactly pattern {(.v4, cidr.base % 2 ^ 32)}) := by
  obtain ⟨cidr, hcidr, hpattern⟩ := rangePattern_of_ok h
  have hbase := base_lt_of_parseCidr hcidr
  refine ⟨cidr, hcidr, fun hown => ?_, fun hmapped => ?_⟩
  · cases hpattern with
    | host hhost htext =>
      have hplain := (host_pattern hcidr hhost).2 fun hspelled => hown ⟨hhost, hspelled⟩
      rw [htext, hplain, Option.getD_some, cidrAddresses_of_host hcidr hhost]
      exact matchesExactly_address hbase
    | @octets k version length pos le =>
      have hlen : ((octetsOf cidr.base).take k).length = k := by
        rw [length_take]
        exact Nat.min_eq_left (le.trans (Nat.le_succ 3))
      intro version' n hn
      rw [matchesExactly_octets (ne_nil_of_length_pos (pos.trans_eq hlen.symm)) (hlen.trans_le le) version' n hn]
      simp only [startsWithOctets, cidrAddresses, Set.mem_ofPred_eq, hlen, version]
      refine and_congr_right fun hv4 => ?_
      subst hv4
      rw [mem_numbers_iff_take hcidr (w := 8) (k := 4) (by rw [version]; rfl) (le.trans (by decide)) length hn,
        octetsOf_eq_groups, octetsOf_eq_groups]
    | @groups k version length pos le nonzero =>
      have hlen : ((ipv6HextetsFromBigInt cidr.base).take k).length = k := by
        rw [length_take, length_ipv6HextetsFromBigInt]
        omega
      intro version' n hn
      rw [matchesExactly_groups (ne_nil_of_length_pos (pos.trans_eq hlen.symm)) (hlen.trans_le le) nonzero version'
        n hn]
      simp only [startsWithGroups, cidrAddresses, Set.mem_ofPred_eq, hlen, version]
      refine and_congr_right fun hv6 => ?_
      subst hv6
      rw [version] at hbase
      rw [mem_numbers_iff_take hcidr (w := 16) (k := 8) (by rw [version]; rfl) (by omega) length hn,
        hextets_eq_groups hn, hextets_eq_groups hbase]
  · obtain ⟨hhost, hspelled⟩ := hmapped
    cases hpattern with
    | host hhost' htext =>
      rw [htext, (host_pattern hcidr hhost).1 hspelled, Option.getD_some]
      exact matchesExactly_address (Nat.mod_lt _ (by positivity))
    | octets version length pos le =>
      rw [ParsedCidr.hostBits, version, length] at hhost
      change 32 - _ = 0 at hhost
      omega
    | groups version length pos le =>
      rw [ParsedCidr.hostBits, version, length] at hhost
      change 128 - _ = 0 at hhost
      omega

/-! ## Entries -/

/-- A text that is typed as one address. -/
def TypedAddress (value : Text) : Prop := '/' ∉ value ∧ value.getLast? ≠ some '%'

/-- A text that is taken for an address and is none: a bare pair of groups, or an IPv4 address with
blanks inside the brackets or before the zone. -/
def IsMistaken (value : Text) : Prop :=
  TypedAddress value ∧ (IsPaddedIpv4 (candidateOf value) ∨ (hexMapped (candidateOf value)).isSome)

/-- The addresses that the value of an `address:` entry denotes. -/
inductive EntryDenotes (value : Text) : Set Address → Prop
  | range {cidr : ParsedCidr} (slash : '/' ∈ value) (parsed : parseCidr value = some cidr)
      (own : ¬IsMappedHost value cidr) : EntryDenotes value (cidrAddresses cidr)
  | mappedHost {cidr : ParsedCidr} (slash : '/' ∈ value) (parsed : parseCidr value = some cidr)
      (mapped : IsMappedHost value cidr) : EntryDenotes value {(.v4, cidr.base % 2 ^ 32)}
  | octets {parts : List Text} (text : value = ['.'].intercalate parts ++ ['.', '%']) (some_part : parts ≠ [])
      (digits : ∀ p ∈ parts, isOctetDigits p = true) :
      EntryDenotes value (startsWithOctets (parts.map (ofDigits 10)))
  | groups {parts : List Text} (text : value = [':'].intercalate parts ++ [':', '%']) (some_part : parts ≠ [])
      (digits : ∀ p ∈ parts, isIpv6Hextet p = true) :
      EntryDenotes value (startsWithGroups (parts.map (ofDigits 16)))
  | address {version : IpAddressVersion} {n : ℕ} (typed : TypedAddress value)
      (names : Names (candidateOf value) version n) : EntryDenotes value {(version, n)}

/-- What a typed prefix is rewritten to. -/
inductive TypedPattern (value : Text) : Text → Prop
  | octets {parts : List Text} (text : value = ['.'].intercalate parts ++ ['.', '%']) (some_part : parts ≠ [])
      (le : parts.length ≤ 3) (digits : ∀ p ∈ parts, isOctetDigits p = true)
      (inRange : ∀ p ∈ parts, octetInRange p = true) :
      TypedPattern value (octetsPattern (parts.map (ofDigits 10)))
  | groups {parts : List Text} (text : value = [':'].intercalate parts ++ [':', '%']) (some_part : parts ≠ [])
      (le : parts.length ≤ 7) (digits : ∀ p ∈ parts, isIpv6Hextet p = true)
      (nonzero : ∀ p ∈ parts, ofDigits 16 p ≠ 0) :
      TypedPattern value (groupsPattern (parts.map (ofDigits 16)))

theorem typedPattern_of_ok {value pattern : Text} (h : parseTypedPrefix value = .ok pattern) :
    TypedPattern value pattern := by
  rw [parseTypedPrefix] at h
  split at h
  · rename_i octets hoctets
    obtain ⟨htext, hne, hle, hdigits⟩ :=
      (prefixGroups_eq_some fun p hp => dot_not_mem_of_isOctetDigits hp).1 hoctets
    split_ifs at h with hrange
    have hall := all_eq_true.1 hrange
    have hparts : (octets.map (ofDigits 10)).map (Nat.toDigits 10) = octets := by
      rw [map_map]
      exact (map_congr_left fun p hp => toDigits_of_octetInRange (hdigits p hp) (hall p hp)).trans
        (map_id octets)
    have hpattern : octetsPattern (octets.map (ofDigits 10)) = pattern := by
      rw [octetsPattern, hparts, ← htext]
      exact Except.ok.inj h
    rw [← hpattern]
    exact .octets htext hne hle hdigits hall
  · split at h
    · rename_i groups hgroups
      obtain ⟨htext, hne, hle, hdigits⟩ :=
        (prefixGroups_eq_some fun p hp => colon_not_mem_of_isIpv6Hextet hp).1 hgroups
      split_ifs at h with hzero
      have hnumbers : groups.map (fun g => Nat.toDigits 16 (groupNumber g)) =
          (groups.map (ofDigits 16)).map (Nat.toDigits 16) := by
        rw [map_map]
        exact map_congr_left fun g hg => congrArg _ (groupNumber_eq (hdigits g hg))
      rw [hnumbers] at h
      rw [← Except.ok.inj h]
      refine .groups htext hne hle hdigits fun p hp => ?_
      rw [← groupNumber_eq (hdigits p hp)]
      simpa using all_eq_true.1 hzero p hp
    · cases h

/-- **What an accepted entry denotes is matched exactly**, unless the value is mistaken for an
address. -/
theorem parseAddressEntry_exact {raw pattern : Text} (h : parseAddressEntry raw = .ok pattern)
    (hmistaken : ¬IsMistaken (trim raw)) :
    ∃ addresses, EntryDenotes (trim raw) addresses ∧ MatchesExactly pattern addresses := by
  rw [parseAddressEntry] at h
  split_ifs at h with hslash hlast
  · have hmem : '/' ∈ trim raw := by simpa using hslash
    obtain ⟨cidr, hcidr, hown, hmapped⟩ := cidrToSourcePrefix_exact h
    by_cases hhost : IsMappedHost (trim raw) cidr
    · exact ⟨_, .mappedHost hmem hcidr hhost, hmapped hhost⟩
    · exact ⟨_, .range hmem hcidr hhost, hown hhost⟩
  · cases typedPattern_of_ok h with
    | @octets parts text some_part le digits inRange =>
      exact ⟨_, .octets text some_part digits, matchesExactly_octets (by simpa using some_part)
        (by rwa [length_map])⟩
    | @groups parts text some_part le digits nonzero =>
      refine ⟨_, .groups text some_part digits, matchesExactly_groups (by simpa using some_part)
        (by rwa [length_map]) fun g hg => ?_⟩
      obtain ⟨p, hp, rfl⟩ := mem_map.1 hg
      exact nonzero p hp
  · have htyped : TypedAddress (trim raw) := ⟨by simpa using hslash, hlast⟩
    have hpad : ¬IsPaddedIpv4 (candidateOf (trim raw)) := fun hpad => hmistaken ⟨htyped, .inl hpad⟩
    have hpair : hexMapped (candidateOf (trim raw)) = none := by
      rw [← Option.not_isSome_iff_eq_none]
      exact fun hpair => hmistaken ⟨htyped, .inr hpair⟩
    split at h
    · rename_i address haddress
      cases h
      obtain ⟨version, n, hn, rfl, hnames⟩ := standardAddress_names haddress hpad hpair
      exact ⟨_, .address htyped hnames, matchesExactly_address hn⟩
    · cases h

/-- **A login's address range is translated exactly.** The pattern of a range matches the addresses
of the range and no others, where a `::ffff:` address with all its bits is the IPv4 address in it.
The pattern of an `address:` value matches the addresses that the value denotes, unless it is
mistaken for an address. -/
theorem source_patterns_exact :
    (∀ value pattern, cidrToSourcePrefix value = .ok pattern → ∃ cidr, parseCidr value = some cidr ∧
      (¬IsMappedHost value cidr → MatchesExactly pattern (cidrAddresses cidr)) ∧
      (IsMappedHost value cidr → MatchesExactly pattern {(.v4, cidr.base % 2 ^ 32)})) ∧
    ∀ raw pattern, parseAddressEntry raw = .ok pattern → ¬IsMistaken (trim raw) →
      ∃ addresses, EntryDenotes (trim raw) addresses ∧ MatchesExactly pattern addresses :=
  ⟨fun _ _ h => cidrToSourcePrefix_exact h, fun _ _ h hmistaken => parseAddressEntry_exact h hmistaken⟩

theorem two_patterns_exact :
    (∃ cidr, parseCidr "203.0.113.7/24".toList = some cidr ∧
      MatchesExactly "203.0.113.%".toList (cidrAddresses cidr)) ∧
    ∃ addresses, EntryDenotes "2001:0DB8:%".toList addresses ∧
      MatchesExactly "2001:db8:%".toList addresses := by
  obtain ⟨hranges, hentries⟩ := source_patterns_exact
  constructor
  · obtain ⟨cidr, hcidr, hown, -⟩ := hranges "203.0.113.7/24".toList "203.0.113.%".toList (by decide)
    refine ⟨cidr, hcidr, hown ?_⟩
    obtain rfl : (⟨.v4, 0xcb007100, 24⟩ : ParsedCidr) = cidr := Option.some.inj ((by decide :
      some _ = parseCidr "203.0.113.7/24".toList).trans hcidr)
    exact fun hmapped => absurd hmapped.1 (by decide)
  · refine hentries "2001:0DB8:%".toList "2001:db8:%".toList (by decide) fun hmistaken => ?_
    exact hmistaken.1.2 (by decide)

/-- A mapped host matches an IPv4 address. -/
theorem mapped_host_matches_ipv4 : ¬∀ value pattern cidr, cidrToSourcePrefix value = .ok pattern →
    parseCidr value = some cidr → ∀ version n, n < 2 ^ version.bitWidth →
      (Matches pattern (bigIntToIp n version) ↔ version = cidr.version ∧ n ∈ cidr.numbers) := by
  intro h
  have hmatch := (h "::ffff:7f00:1/128".toList "127.0.0.1".toList ⟨.v6, 0xffff7f000001, 128⟩ (by decide)
    (by decide) .v4 0x7f000001 (by decide)).1 (.inl (by decide))
  cases hmatch.1

end TurboPanel.LoginSources
