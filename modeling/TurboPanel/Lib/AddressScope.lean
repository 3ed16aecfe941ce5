import TurboPanel.Lib.CidrSets
import TurboPanel.Lib.Ipv6Text

/-!
# The scope of an address, and how it depends on the spelling

The model of `normalizeIpAddress` and `ipAddressScope` of `src/lib/ip-address.ts`. Classification is
by number, except that an IPv4-mapped address is recognised by the text `::ffff:` at its start. So
two spellings of one address have the same scope unless the address is mapped, one spelling has that
start and the other has not, and the IPv4 address inside is in a special-purpose block: then one is
classified as the IPv4 address and the other as public (`scope_of_spellings`).
-/

namespace TurboPanel.Ip

open Js Blocks List

/-! ## Normalization -/

/-- The text without the brackets around it. -/
def unbracket (candidate : Text) : Text :=
  if candidate.head? = some '[' ∧ candidate.getLast? = some ']' then candidate.tail.dropLast
  else candidate

/-- The text before a `%zone` suffix (`zone > 0`: a `%` at the start stays). -/
def cutZone (candidate : Text) : Text :=
  if candidate.contains '%' ∧ candidate.head? ≠ some '%' then candidate.takeWhile (· != '%')
  else candidate

/-- The start of an IPv4-mapped address, `::ffff:` in any case. -/
def startsMapped : Text → Bool
  | a :: b :: c :: d :: e :: f :: g :: _ =>
    a == ':' && b == ':' && [c, d, e, f].all (fun x => x == 'f' || x == 'F') && g == ':'
  | _ => false

/-- `candidate.replace(IPV4_MAPPED_PREFIX_RE, '')`. The first alternative `::ffff:` matches wherever
the second, `::ffff:0:`, does, so it is the one that is removed. -/
def stripMappedPrefix (candidate : Text) : Text :=
  if startsMapped candidate then candidate.drop 7 else candidate

/-- `IPV4_MAPPED_HEX_RE`: two groups, and nothing else. -/
def hexMapped (text : Text) : Option (Text × Text) :=
  match text.splitOn ':' with
  | [hi, lo] => if isIpv6Hextet hi && isIpv6Hextet lo then some (hi, lo) else none
  | _ => none

/-- `${hi >> 8}.${hi & 0xff}.${lo >> 8}.${lo & 0xff}`. -/
def dottedOfGroups (hi lo : ℕ) : Text := dotted [hi >>> 8, hi &&& 0xff, lo >>> 8, lo &&& 0xff]

def normalizeIpAddress (value : Text) : Option Text :=
  let candidate := cutZone (unbracket (stripInetPrefixSuffix (trim value)))
  let mapped := stripMappedPrefix candidate
  if mapped ≠ candidate ∧ isIpv4Address mapped = true then some mapped
  else
    match hexMapped (if mapped ≠ candidate then mapped else candidate) with
    | some (hi, lo) =>
      -- both groups are hexadecimal digits, so `NaN` does not occur
      some (dottedOfGroups ((parseInt 16 hi).getD 0).toNat ((parseInt 16 lo).getD 0).toNat)
    | none => if isValidIpAddress candidate then some candidate else none

/-! ## Classification -/

inductive IpAddressScope
  | loopback
  | linkLocal
  | privateHost
  | publicHost
  deriving DecidableEq

def loopbackCidrs : List String := ["127.0.0.0/8", "::1/128"]

def linkLocalCidrs : List String := ["169.254.0.0/16", "fe80::/10"]

def reservedIpv4Cidrs : List String := ["192.0.0.0/24", "198.18.0.0/15", "240.0.0.0/4"]

def privateCidrs : List String :=
  ["10.0.0.0/8", "172.16.0.0/12", "192.168.0.0/16", "100.64.0.0/10", "fc00::/7"] ++
    reservedIpv4Cidrs

/-- Never a host address: unspecified, multicast, broadcast. -/
def unusableCidrs : List String :=
  ["0.0.0.0/8", "224.0.0.0/4", "255.255.255.255/32", "::/128", "ff00::/8"]

def matchesAny (address : Text) (cidrs : List String) : Bool :=
  cidrs.any fun cidr => addressInCidr address cidr.toList

def ipv4Mask : ℕ := 0xffffffff

def nat64Prefix : ℕ := 0x64ff9b0000000000000000

def localNat64Prefix : ℕ := 0x64ff9b0001

def sixToFourPrefix : ℕ := 0x2002

def teredoPrefix : ℕ := 0x20010000

/-- The IPv4 addresses an IPv6 transition address delivers to. -/
def embeddedIpv4 (address : Text) : List Text :=
  if parseIpVersion address ≠ some .v6 then []
  else
    match ipToBigInt? address with
    | none => []
    | some value =>
      if value >>> 32 = 0 then [bigIntToIp (value &&& ipv4Mask) .v4]
      else if value >>> 32 = nat64Prefix then [bigIntToIp (value &&& ipv4Mask) .v4]
      else if value >>> 112 = sixToFourPrefix then [bigIntToIp ((value >>> 80) &&& ipv4Mask) .v4]
      else if value >>> 96 = teredoPrefix then
        [bigIntToIp ((value >>> 64) &&& ipv4Mask) .v4,
          bigIntToIp ((value &&& ipv4Mask) ^^^ ipv4Mask) .v4]
      else []

def isLocalNat64 (address : Text) : Bool :=
  match (if parseIpVersion address = some .v6 then ipToBigInt? address else none) with
  | none => false
  | some value => value >>> 80 == localNat64Prefix

/-- The first non-public scope among the embedded IPv4 addresses, with the classifier for them;
`none` when there is none. -/
def embeddedIpv4Scope (scope : Text → Option IpAddressScope) (address : Text) :
    Option (Option IpAddressScope) :=
  ((embeddedIpv4 address).map scope).find? (· != some .publicHost)

/-- The tests of `ipAddressScope` on a normalized address. -/
def classify (scope : Text → Option IpAddressScope) (address : Text) : Option IpAddressScope :=
  if address.isEmpty then none
  else if matchesAny address unusableCidrs then none
  else if matchesAny address loopbackCidrs then some .loopback
  else if matchesAny address linkLocalCidrs then some .linkLocal
  else if matchesAny address privateCidrs then some .privateHost
  else if isLocalNat64 address then some .privateHost
  else (embeddedIpv4Scope scope address).getD (some .publicHost)

/-- The body of `ipAddressScope`, with the classifier for embedded addresses. -/
def scopeStep (scope : Text → Option IpAddressScope) (value : Text) : Option IpAddressScope :=
  (normalizeIpAddress value).bind (classify scope)

/-- The function calls itself on embedded IPv4 addresses, which embed none: the second call is the
last one. -/
def ipAddressScope : Text → Option IpAddressScope := scopeStep (scopeStep fun _ => none)

/-! ## What classification reads -/

/-- Classification sees the version and the number of an address. -/
theorem classify_congr {scope : Text → Option IpAddressScope} {a b : Text}
    (hne : a.isEmpty = b.isEmpty) (hver : parseIpVersion a = parseIpVersion b)
    (hstrip : parseIpVersion (stripInetPrefixSuffix a) = parseIpVersion (stripInetPrefixSuffix b))
    (hnum : ipToBigInt? a = ipToBigInt? b) : classify scope a = classify scope b := by
  have hm : ∀ cidrs, matchesAny a cidrs = matchesAny b cidrs := by
    intro cidrs
    simp only [matchesAny, addressInCidr, hnum, hstrip]
  have hl : isLocalNat64 a = isLocalNat64 b := by rw [isLocalNat64, isLocalNat64, hver, hnum]
  have he : embeddedIpv4 a = embeddedIpv4 b := by rw [embeddedIpv4, embeddedIpv4, hver, hnum]
  simp only [classify, hne, hm, hl, embeddedIpv4Scope, he]

theorem matchesAny_iff {address : Text} {cidrs : List String} {ver : IpAddressVersion} {v : ℕ}
    (hver : parseIpVersion (stripInetPrefixSuffix address) = some ver)
    (hnum : ipToBigInt? address = some v) : matchesAny address cidrs = true ↔
      ∃ c ∈ cidrs.filterMap (parseCidr ·.toList), ver = c.version ∧ v ∈ c.numbers := by
  rw [matchesAny, any_eq_true]
  constructor
  · rintro ⟨cidr, hmem, h⟩
    cases hc : parseCidr cidr.toList with
    | none => simp [addressInCidr, hc] at h
    | some c =>
      obtain ⟨h₁, w, h₂, h₃⟩ := (addressInCidr_iff hc).1 h
      rw [hver, Option.some.injEq] at h₁
      rw [hnum, Option.some.injEq] at h₂
      exact ⟨c, mem_filterMap.2 ⟨cidr, hmem, hc⟩, h₁, h₂ ▸ h₃⟩
  · rintro ⟨c, hmem, hv, hw⟩
    obtain ⟨cidr, hcidr, hc⟩ := mem_filterMap.1 hmem
    exact ⟨cidr, hcidr, (addressInCidr_iff hc).2 ⟨hv ▸ hver, v, hnum, hw⟩⟩

/-! ## IPv4 addresses -/

/-- The special-purpose blocks, as a first number and a number of host bits: every IPv4 block that
`ipAddressScope` names (the broadcast address is in the last one). -/
def specialIpv4Blocks : List (ℕ × ℕ) :=
  [(0, 24), (10 * 2 ^ 24, 24), (100 * 2 ^ 24 + 64 * 2 ^ 16, 22), (127 * 2 ^ 24, 24),
    (169 * 2 ^ 24 + 254 * 2 ^ 16, 16), (172 * 2 ^ 24 + 16 * 2 ^ 16, 20), (192 * 2 ^ 24, 8),
    (192 * 2 ^ 24 + 168 * 2 ^ 16, 16), (198 * 2 ^ 24 + 18 * 2 ^ 16, 17), (224 * 2 ^ 24, 28),
    (240 * 2 ^ 24, 28)]

/-- The number is in no special-purpose block. -/
def isPublicIpv4 (v : ℕ) : Bool :=
  specialIpv4Blocks.all fun (base, bits) => decide (v < base) || decide (base + 2 ^ bits ≤ v)

theorem candidate_eq {a : Text} (htrim : trim a = a) (hslash : '/' ∉ a) (hopen : '[' ∉ a)
    (hzone : '%' ∉ a) : cutZone (unbracket (stripInetPrefixSuffix (trim a))) = a := by
  have h₁ : stripInetPrefixSuffix (trim a) = a := by
    rw [stripInetPrefixSuffix_of_not_mem, htrim, htrim]
    rwa [htrim, htrim]
  have h₂ : unbracket a = a := by
    rw [unbracket, if_neg]
    exact fun h => hopen (mem_of_mem_head? h.1)
  rw [h₁, h₂, cutZone, if_neg]
  exact fun h => hzone (by simpa using h.1)

theorem startsMapped_iff {a : Text} : startsMapped a = true ↔
    ∃ group rest, a = ':' :: ':' :: (group ++ ':' :: rest) ∧ group.length = 4 ∧
      ∀ x ∈ group, x = 'f' ∨ x = 'F' := by
  constructor
  · intro h
    unfold startsMapped at h
    split at h
    · rename_i a b c d e f g rest
      simp only [Bool.and_eq_true, beq_iff_eq, all_eq_true, Bool.or_eq_true] at h
      obtain ⟨⟨⟨rfl, rfl⟩, hf⟩, rfl⟩ := h
      exact ⟨[c, d, e, f], rest, rfl, rfl, hf⟩
    · cases h
  · rintro ⟨group, rest, rfl, hlen, hf⟩
    obtain ⟨c, d, e, f, rfl⟩ := length_eq_four.1 hlen
    simpa [startsMapped] using hf

theorem spellsHextet_of_f {group : Text} (hlen : group.length = 4)
    (hf : ∀ c ∈ group, c = 'f' ∨ c = 'F') : SpellsHextet group 0xffff := by
  obtain ⟨c, d, e, f, rfl⟩ := length_eq_four.1 hlen
  simp only [mem_cons, not_mem_nil, or_false, forall_eq_or_imp, forall_eq] at hf
  obtain ⟨rfl | rfl, rfl | rfl, rfl | rfl, rfl | rfl⟩ := hf <;>
    exact ⟨cons_ne_nil _ _, le_rfl, all_eq_true.1 rfl, rfl⟩

theorem hexMapped_eq_some {a hi lo : Text} : hexMapped a = some (hi, lo) ↔
    a = hi ++ ':' :: lo ∧ isIpv6Hextet hi = true ∧ isIpv6Hextet lo = true := by
  constructor
  · intro h
    simp only [hexMapped] at h
    split at h
    · rename_i hi' lo' hsplit
      simp only [Option.ite_none_right_eq_some, Bool.and_eq_true, Option.some.injEq,
        Prod.mk.injEq] at h
      obtain ⟨hgroups, rfl, rfl⟩ := h
      refine ⟨?_, hgroups⟩
      rw [← colonJoin_splitOn a, hsplit]
      simp [colonJoin, intercalate_cons_cons]
    · cases h
  · rintro ⟨rfl, hhi, hlo⟩
    have hsplit : (colonJoin [hi, lo]).splitOn ':' = [hi, lo] :=
      splitOn_colonJoin (.cons (spellsHextet_of_isIpv6Hextet hhi)
        (.cons (spellsHextet_of_isIpv6Hextet hlo) .nil)) (by simp)
    have hjoin : colonJoin [hi, lo] = hi ++ ':' :: lo := by
      simp [colonJoin, intercalate_cons_cons]
    rw [hjoin] at hsplit
    simp [hexMapped, hsplit, hhi, hlo]

theorem count_colon_of_hexMapped {a hi lo : Text} (h : hexMapped a = some (hi, lo)) :
    a.count ':' = 1 := by
  obtain ⟨rfl, hhi, hlo⟩ := hexMapped_eq_some.1 h
  have hcolon : ∀ l : Text, isIpv6Hextet l = true → l.count ':' = 0 := fun l hl =>
    count_eq_zero_of_not_mem ((spellsHextet_of_isIpv6Hextet hl).not_mem (by decide))
  rw [count_append, count_cons_self, hcolon hi hhi, hcolon lo hlo]

theorem parseInt_of_isIpv6Hextet {part : Text} (h : isIpv6Hextet part = true) :
    ((parseInt 16 part).getD 0).toNat = ofDigits 16 part := by
  have hs := spellsHextet_of_isIpv6Hextet h
  rw [parseInt_digits (by decide) hs.ne_nil hs.digits]
  rfl

theorem dottedOfGroups_eq {x y : ℕ} (hx : x < 2 ^ 16) (hy : y < 2 ^ 16) :
    dottedOfGroups x y = bigIntToIpv4 (x * 2 ^ 16 + y) := by
  have hbyte : ∀ n : ℕ, n &&& 0xff = n % 256 := fun n => Nat.and_two_pow_sub_one_eq_mod n 8
  rw [bigIntToIpv4_eq, octetsOf]
  simp only [dottedOfGroups, hbyte, Nat.shiftRight_eq_div_pow]
  refine congrArg dotted ?_
  simp only [List.cons.injEq, and_true]
  omega

theorem normalizeIpAddress_bigIntToIpv4 (v : ℕ) :
    normalizeIpAddress (bigIntToIpv4 v) = some (bigIntToIpv4 v) := by
  have hnot : ∀ c, c ≠ '.' → isDigitOf 10 c = false → c ∉ bigIntToIpv4 v := by
    intro c h₁ h₂
    rw [bigIntToIpv4_eq]
    exact not_mem_dotted h₁ h₂
  have hcand := candidate_eq (trim_bigIntToIpv4 v) (hnot '/' (by decide) (by decide))
    (hnot '[' (by decide) (by decide)) (hnot '%' (by decide) (by decide))
  have hcolon := hnot ':' (by decide) (by decide)
  have hstart : startsMapped (bigIntToIpv4 v) = false := by
    rw [← Bool.not_eq_true]
    intro h
    obtain ⟨group, rest, e, -⟩ := startsMapped_iff.1 h
    exact hcolon (by simp [e])
  have hhex : hexMapped (bigIntToIpv4 v) = none := by
    rw [Option.eq_none_iff_forall_not_mem]
    rintro ⟨hi, lo⟩ h
    have hcount := count_colon_of_hexMapped h
    rw [count_eq_zero_of_not_mem hcolon] at hcount
    cases hcount
  simp [normalizeIpAddress, hcand, stripMappedPrefix, hstart, hhex, isValidIpAddress,
    parseIpVersion_bigIntToIpv4]

/-- Every block that is tested by number. -/
def testedCidrs : List String := unusableCidrs ++ (loopbackCidrs ++ (linkLocalCidrs ++ privateCidrs))

theorem classify_eq_public {scope : Text → Option IpAddressScope} {a : Text}
    (hne : a ≠ []) (hlocal : isLocalNat64 a = false) (hemb : embeddedIpv4 a = []) :
    classify scope a = some .publicHost ↔ matchesAny a testedCidrs = false := by
  have hemp : a.isEmpty = false := by simpa using hne
  simp only [testedCidrs, matchesAny, any_append, Bool.or_eq_false_iff]
  simp only [classify, hemp, hlocal, embeddedIpv4Scope, hemb, matchesAny]
  generalize unusableCidrs.any _ = unusable, loopbackCidrs.any _ = loopback,
    linkLocalCidrs.any _ = linkLocal, privateCidrs.any _ = privateHost
  cases unusable <;> cases loopback <;> cases linkLocal <;> cases privateHost <;> simp

theorem parseCidr_testedCidrs : testedCidrs.filterMap (parseCidr ·.toList) =
    [⟨.v4, 0, 8⟩, ⟨.v4, 224 * 2 ^ 24, 4⟩, ⟨.v4, 2 ^ 32 - 1, 32⟩, ⟨.v6, 0, 128⟩,
      ⟨.v6, 0xff * 2 ^ 120, 8⟩, ⟨.v4, 127 * 2 ^ 24, 8⟩, ⟨.v6, 1, 128⟩,
      ⟨.v4, 169 * 2 ^ 24 + 254 * 2 ^ 16, 16⟩, ⟨.v6, 0xfe8 * 2 ^ 116, 10⟩, ⟨.v4, 10 * 2 ^ 24, 8⟩,
      ⟨.v4, 172 * 2 ^ 24 + 16 * 2 ^ 16, 12⟩, ⟨.v4, 192 * 2 ^ 24 + 168 * 2 ^ 16, 16⟩,
      ⟨.v4, 100 * 2 ^ 24 + 64 * 2 ^ 16, 10⟩, ⟨.v6, 0xfc * 2 ^ 120, 7⟩, ⟨.v4, 192 * 2 ^ 24, 24⟩,
      ⟨.v4, 198 * 2 ^ 24 + 18 * 2 ^ 16, 15⟩, ⟨.v4, 240 * 2 ^ 24, 4⟩] := by
  decide

/-- **An IPv4 address is public when it is in no special-purpose block.** -/
theorem ipAddressScope_bigIntToIpv4 {v : ℕ} (hv : v < 2 ^ 32) :
    ipAddressScope (bigIntToIpv4 v) = some .publicHost ↔ isPublicIpv4 v = true := by
  have hver : parseIpVersion (stripInetPrefixSuffix (bigIntToIpv4 v)) = some .v4 := by
    rw [stripInetPrefixSuffix_bigIntToIpv4, parseIpVersion_bigIntToIpv4]
  have hlocal : isLocalNat64 (bigIntToIpv4 v) = false := by
    simp [isLocalNat64, parseIpVersion_bigIntToIpv4]
  have hemb : embeddedIpv4 (bigIntToIpv4 v) = [] := by
    simp [embeddedIpv4, parseIpVersion_bigIntToIpv4]
  rw [ipAddressScope, scopeStep, normalizeIpAddress_bigIntToIpv4, Option.bind_some,
    classify_eq_public (bigIntToIpv4_ne_nil v) hlocal hemb, ← Bool.not_eq_true,
    matchesAny_iff hver (ipToBigInt_bigIntToIpv4 hv), parseCidr_testedCidrs]
  simp [isPublicIpv4, specialIpv4Blocks, ParsedCidr.numbers, ParsedCidr.hostBits,
    IpAddressVersion.bitWidth]
  omega

/-! ## Spellings of an IPv6 address -/

/-- The groups of the IPv4-mapped address whose low groups are `x` and `y`. -/
def mappedGroups (x y : ℕ) : List ℕ := [0, 0, 0, 0, 0, 0xffff, x, y]

theorem numberOf_mappedGroups (x y : ℕ) :
    numberOf (mappedGroups x y) = 0xffff * 2 ^ 32 + x * 2 ^ 16 + y := by
  simp only [numberOf, mappedGroups, foldl_cons, foldl_nil]
  omega

section Spelling

variable {a : Text} {groups : List ℕ} (h : SpellsIpv6 a groups)

include h

theorem candidate_of_spells : cutZone (unbracket (stripInetPrefixSuffix (trim a))) = a :=
  candidate_eq h.trim_eq (h.not_mem_text (by decide) (by decide))
    (h.not_mem_text (by decide) (by decide)) (h.not_mem_text (by decide) (by decide))

theorem two_le_count_colon : 2 ≤ a.count ':' := by
  cases h with
  | @full parts _ hlen _ =>
    obtain ⟨p, q, r, ps, rfl⟩ : ∃ p q r ps, parts = p :: q :: r :: ps := by
      match parts, hlen with
      | p :: q :: r :: ps, _ => exact ⟨p, q, r, ps, rfl⟩
    simp only [colonJoin, intercalate_cons_cons, count_append, count_singleton_self]
    omega
  | compressed => 
    simp only [count_append, count_cons_self]
    omega

theorem exists_of_startsMapped (hstart : startsMapped a = true) : ∃ gap right low,
    a.drop 7 = colonJoin right ∧ right ≠ [] ∧ List.Forall₂ SpellsHextet right low ∧
      groups = List.replicate gap 0 ++ 0xffff :: low ∧ gap + right.length = 7 := by
  obtain ⟨group, rest, ha, hlen, hf⟩ := startsMapped_iff.1 hstart
  have hcolon : ':' ∉ group := fun hm => absurd (hf ':' hm) (by decide)
  have hdrop : a.drop 7 = rest := by
    obtain ⟨c, d, e, f, rfl⟩ := length_eq_four.1 hlen
    rw [ha]
    rfl
  cases h with
  | full _ hs => exact absurd rfl ((colonJoin_chain hs).2.1 ':' (by rw [ha]; rfl))
  | @compressed left right high low gap hl hr hgap hsum =>
    -- groups in front of the `::` would put a digit first
    obtain rfl : left = [] := by
      by_contra hne
      have hside := sideHextets_colonJoin hl
      cases hjoin : colonJoin left with
      | nil =>
        rw [hjoin] at hside
        exact hne hside.symm
      | cons c cs =>
        rw [hjoin, cons_append] at ha
        exact (colonJoin_chain hl).2.1 c (by rw [hjoin]; rfl) (List.cons.inj ha).1
    obtain rfl : high = [] := by simpa using hl
    have hright : colonJoin right = group ++ ':' :: rest := by simpa [colonJoin] using ha
    cases hr with
    | nil => simp [colonJoin] at hright
    | @cons p g ps low hp htail =>
      cases ps with
      | nil =>
        have hmem : ':' ∈ p := by
          rw [colonJoin, intercalate_singleton] at hright
          simp [hright]
        exact absurd hmem (hp.not_mem (by decide))
      | cons q ps =>
        rw [colonJoin, intercalate_cons_cons, append_assoc, singleton_append] at hright
        obtain ⟨rfl, rfl⟩ := append_cons_inj (hp.not_mem (by decide)) hcolon hright
        obtain rfl : g = 0xffff := hp.value.symm.trans (spellsHextet_of_f hlen hf).value
        refine ⟨gap, q :: ps, low, hdrop, by simp, htail, by simp, ?_⟩
        simp only [length_nil, length_cons] at hsum ⊢
        omega

theorem normalizeIpAddress_startsMapped (hstart : startsMapped a = true) :
    normalizeIpAddress a = match hexMapped (a.drop 7) with
      | some (hi, lo) =>
        some (dottedOfGroups ((parseInt 16 hi).getD 0).toNat ((parseInt 16 lo).getD 0).toNat)
      | none => some a := by
  obtain ⟨group, rest, ha, hlen, -⟩ := startsMapped_iff.1 hstart
  have hne : a.drop 7 ≠ a := by
    intro heq
    have hlt := congrArg List.length heq
    rw [length_drop, ha] at hlt
    simp only [length_cons, length_append] at hlt
    omega
  have hdot : isIpv4Address (a.drop 7) = false := by
    have hnot : '.' ∉ a.drop 7 := fun hm =>
      h.not_mem_text (by decide) (by decide) (mem_of_mem_drop hm)
    rw [isIpv4Address, splitOn_eq_singleton hnot]
    rfl
  simp only [normalizeIpAddress, candidate_of_spells h, stripMappedPrefix, hstart, if_true, hdot,
    ne_eq, hne, not_false_eq_true, Bool.false_eq_true, and_false, if_false, isValidIpAddress,
    h.parseIpVersion_eq, Option.isSome_some]

theorem normalizeIpAddress_of_mapped {x y : ℕ} (hgroups : groups = mappedGroups x y)
    (hstart : startsMapped a = true) :
    normalizeIpAddress a = some (bigIntToIpv4 (x * 2 ^ 16 + y)) := by
  obtain ⟨gap, right, low, hdrop, hne, hright, hg, hsum⟩ := exists_of_startsMapped h hstart
  have hgap : gap = 5 ∧ low = [x, y] := by
    rw [hgroups, mappedGroups] at hg
    have hle : gap ≤ 7 := by omega
    interval_cases gap <;> simp [List.replicate] at hg
    exact ⟨rfl, hg.symm⟩
  obtain ⟨rfl, rfl⟩ := hgap
  obtain ⟨hi, lo, rfl⟩ := length_eq_two.1 (show right.length = 2 by omega)
  obtain ⟨hx, hy⟩ : SpellsHextet hi x ∧ SpellsHextet lo y := by simpa using hright
  have hjoin : colonJoin [hi, lo] = hi ++ ':' :: lo := by
    simp [colonJoin, intercalate_cons_cons]
  have hhex := hexMapped_eq_some.2 ⟨hjoin, hx.isIpv6Hextet, hy.isIpv6Hextet⟩
  rw [normalizeIpAddress_startsMapped h hstart, hdrop, hhex]
  simp only [parseInt_of_isIpv6Hextet hx.isIpv6Hextet, parseInt_of_isIpv6Hextet hy.isIpv6Hextet,
    hx.value, hy.value, dottedOfGroups_eq hx.lt hy.lt]

theorem normalizeIpAddress_of_spells
    (hother : startsMapped a = false ∨ ∀ x y, groups ≠ mappedGroups x y) :
    normalizeIpAddress a = some a := by
  by_cases hstart : startsMapped a = true
  · obtain ⟨gap, right, low, hdrop, hne, hright, hg, hsum⟩ := exists_of_startsMapped h hstart
    have hlen : right.length ≠ 2 := by
      intro hlen
      obtain ⟨x, y, rfl⟩ := length_eq_two.1 (hright.length_eq ▸ hlen)
      obtain rfl : gap = 5 := by omega
      rcases hother with hother | hother
      · rw [hother] at hstart
        exact Bool.noConfusion hstart
      · exact hother x y hg
    have hsplit := splitOn_colonJoin hright hne
    have hhex : hexMapped (colonJoin right) = none := by
      rw [hexMapped, hsplit]
      match right, hlen with
      | [], _ => rfl
      | [_], _ => rfl
      | _ :: _ :: _ :: _, _ => rfl
    rw [normalizeIpAddress_startsMapped h hstart, hdrop, hhex]
  · have hhex : hexMapped a = none := by
      rw [Option.eq_none_iff_forall_not_mem]
      rintro ⟨hi, lo⟩ hmem
      have hcount := count_colon_of_hexMapped hmem
      have := two_le_count_colon h
      omega
    simp [normalizeIpAddress, candidate_of_spells h, stripMappedPrefix, hstart, hhex,
      isValidIpAddress, h.parseIpVersion_eq]

theorem classify_of_mapped {scope : Text → Option IpAddressScope} {x y : ℕ}
    (hgroups : groups = mappedGroups x y) : classify scope a = some .publicHost := by
  have hx : x < 2 ^ 16 := h.lt_of_mem (by simp [hgroups, mappedGroups])
  have hy : y < 2 ^ 16 := h.lt_of_mem (by simp [hgroups, mappedGroups])
  have hnum : ipToBigInt? a = some (0xffff * 2 ^ 32 + x * 2 ^ 16 + y) := by
    rw [h.ipToBigInt_eq, hgroups, numberOf_mappedGroups]
  have hver : parseIpVersion (stripInetPrefixSuffix a) = some .v6 := by
    rw [h.stripInetPrefixSuffix_eq, h.parseIpVersion_eq]
  have hlocal : isLocalNat64 a = false := by
    simp only [isLocalNat64, h.parseIpVersion_eq, if_true, hnum, Nat.shiftRight_eq_div_pow,
      beq_eq_false_iff_ne, localNat64Prefix]
    omega
  have hemb : embeddedIpv4 a = [] := by
    simp only [embeddedIpv4, h.parseIpVersion_eq, ne_eq, not_true_eq_false, if_false, hnum,
      Nat.shiftRight_eq_div_pow, nat64Prefix, sixToFourPrefix, teredoPrefix]
    rw [if_neg (by omega), if_neg (by omega), if_neg (by omega), if_neg (by omega)]
  have hne : a ≠ [] := ne_nil_of_mem h.colon_mem
  rw [classify_eq_public hne hlocal hemb, ← Bool.not_eq_true, matchesAny_iff hver hnum,
    parseCidr_testedCidrs]
  simp [ParsedCidr.numbers, ParsedCidr.hostBits, IpAddressVersion.bitWidth]
  omega

end Spelling

theorem ipAddressScope_of_mapped {a : Text} {x y : ℕ} (h : SpellsIpv6 a (mappedGroups x y)) :
    ipAddressScope a = if startsMapped a then ipAddressScope (bigIntToIpv4 (x * 2 ^ 16 + y))
      else some .publicHost := by
  cases hstart : startsMapped a with
  | false =>
    rw [ipAddressScope, scopeStep, normalizeIpAddress_of_spells h (.inl hstart),
      Option.bind_some, classify_of_mapped h rfl]
    rfl
  | true =>
    rw [ipAddressScope, scopeStep, normalizeIpAddress_of_mapped h rfl hstart, if_pos rfl, scopeStep,
      normalizeIpAddress_bigIntToIpv4]

theorem ipAddressScope_of_not_mapped {a b : Text} {groups : List ℕ} (ha : SpellsIpv6 a groups)
    (hb : SpellsIpv6 b groups) (hother : ∀ x y, groups ≠ mappedGroups x y) :
    ipAddressScope a = ipAddressScope b := by
  have hemp : ∀ {t : Text}, SpellsIpv6 t groups → t.isEmpty = false := fun h => by
    simpa using ne_nil_of_mem h.colon_mem
  rw [ipAddressScope, scopeStep, scopeStep, normalizeIpAddress_of_spells ha (.inr hother),
    normalizeIpAddress_of_spells hb (.inr hother), Option.bind_some, Option.bind_some]
  refine classify_congr ?_ ?_ ?_ ?_
  · rw [hemp ha, hemp hb]
  · rw [ha.parseIpVersion_eq, hb.parseIpVersion_eq]
  · rw [ha.stripInetPrefixSuffix_eq, hb.stripInetPrefixSuffix_eq, ha.parseIpVersion_eq,
      hb.parseIpVersion_eq]
  · rw [ha.ipToBigInt_eq, hb.ipToBigInt_eq]

theorem mappedGroups_inj {x y x' y' : ℕ} (h : mappedGroups x y = mappedGroups x' y') :
    x = x' ∧ y = y' := by
  simpa [mappedGroups] using h

/-- **When the scope depends on the spelling.** Two forms of one address have the same scope unless
the address is IPv4-mapped, its IPv4 address is in a special-purpose block, and exactly one of the
forms starts with `::ffff:`. A form of a mapped address has the scope of the IPv4 address when it
starts so, or when that address is public. -/
theorem scope_of_spellings {a b : Text} {groups : List ℕ} (ha : SpellsIpv6 a groups)
    (hb : SpellsIpv6 b groups) :
    (ipAddressScope a = ipAddressScope b ↔ ∀ x y, groups = mappedGroups x y →
      isPublicIpv4 (x * 2 ^ 16 + y) = true ∨ startsMapped a = startsMapped b) ∧
    ∀ x y, groups = mappedGroups x y →
      (ipAddressScope a = ipAddressScope (dotted [x / 256, x % 256, y / 256, y % 256]) ↔
        isPublicIpv4 (x * 2 ^ 16 + y) = true ∨ startsMapped a = true) := by
  by_cases hmapped : ∃ x y, groups = mappedGroups x y
  · obtain ⟨x, y, rfl⟩ := hmapped
    have hx : x < 2 ^ 16 := ha.lt_of_mem (by simp [mappedGroups])
    have hy : y < 2 ^ 16 := ha.lt_of_mem (by simp [mappedGroups])
    have hpublic := ipAddressScope_bigIntToIpv4 (show x * 2 ^ 16 + y < 2 ^ 32 by omega)
    have hdotted : dotted [x / 256, x % 256, y / 256, y % 256] =
        bigIntToIpv4 (x * 2 ^ 16 + y) := by
      rw [bigIntToIpv4_eq, octetsOf]
      refine congrArg dotted ?_
      simp only [List.cons.injEq, and_true]
      omega
    have hcond : ∀ {P : ℕ → ℕ → Prop}, (∀ x' y', mappedGroups x y = mappedGroups x' y' → P x' y') ↔
        P x y := by
      refine fun {P} => ⟨fun h => h x y rfl, fun h x' y' heq => ?_⟩
      obtain ⟨rfl, rfl⟩ := mappedGroups_inj heq
      exact h
    rw [hcond, hcond, hdotted, ipAddressScope_of_mapped ha, ipAddressScope_of_mapped hb, ← hpublic]
    cases startsMapped a <;> cases startsMapped b <;> simp [eq_comm]
  · refine ⟨⟨fun _ x y hg => absurd ⟨x, y, hg⟩ hmapped, fun _ => ?_⟩,
      fun x y hg => absurd ⟨x, y, hg⟩ hmapped⟩
    exact ipAddressScope_of_not_mapped ha hb fun x y hg => hmapped ⟨x, y, hg⟩

theorem spellsHextet_ffff : SpellsHextet ['f', 'f', 'f', 'f'] 0xffff :=
  spellsHextet_of_f rfl (by simp)

theorem spellsHextet_7f00 : SpellsHextet ['7', 'f', '0', '0'] 0x7f00 :=
  ⟨cons_ne_nil _ _, le_rfl, all_eq_true.1 rfl, rfl⟩

theorem spellsHextet_one : SpellsHextet ['1'] 1 :=
  ⟨cons_ne_nil _ _, by decide, all_eq_true.1 rfl, rfl⟩

theorem spells_loopback_groups : List.Forall₂ SpellsHextet
    [['f', 'f', 'f', 'f'], ['7', 'f', '0', '0'], ['1']] [0xffff, 0x7f00, 1] :=
  .cons spellsHextet_ffff (.cons spellsHextet_7f00 (.cons spellsHextet_one .nil))

theorem spells_mapped_loopback_full :
    SpellsIpv6 "0:0:0:0:0:ffff:7f00:1".toList (mappedGroups 0x7f00 1) :=
  @SpellsIpv6.full [['0'], ['0'], ['0'], ['0'], ['0'], ['f', 'f', 'f', 'f'], ['7', 'f', '0', '0'],
    ['1']] _ rfl (.cons .zero (.cons .zero (.cons .zero (.cons .zero (.cons .zero
      spells_loopback_groups)))))

theorem spells_mapped_loopback_short :
    SpellsIpv6 "::ffff:7f00:1".toList (mappedGroups 0x7f00 1) :=
  @SpellsIpv6.compressed [] [['f', 'f', 'f', 'f'], ['7', 'f', '0', '0'], ['1']] []
    [0xffff, 0x7f00, 1] 5 .nil spells_loopback_groups (by decide) rfl

theorem mapped_loopback_scope_differs : ∃ a b groups, SpellsIpv6 a groups ∧ SpellsIpv6 b groups ∧
    ipAddressScope a = some .publicHost ∧ ipAddressScope b = some .loopback :=
  ⟨_, _, _, spells_mapped_loopback_full, spells_mapped_loopback_short, by decide, by decide⟩

theorem scope_of_mapped_loopback : SpellsIpv6 "0:0:0:0:0:ffff:7f00:1".toList (mappedGroups 0x7f00 1) ∧
    SpellsIpv6 "::ffff:7f00:1".toList (mappedGroups 0x7f00 1) ∧
    ipAddressScope "::ffff:7f00:1".toList = ipAddressScope "127.0.0.1".toList ∧
    ipAddressScope "0:0:0:0:0:ffff:7f00:1".toList ≠ ipAddressScope "127.0.0.1".toList := by
  refine ⟨spells_mapped_loopback_full, spells_mapped_loopback_short, ?_, ?_⟩
  · exact ((scope_of_spellings spells_mapped_loopback_short spells_mapped_loopback_full).2 0x7f00 1
      rfl).2 (.inr (by decide))
  · intro heq
    have := ((scope_of_spellings spells_mapped_loopback_full spells_mapped_loopback_short).2 0x7f00 1
      rfl).1 heq
    exact absurd this (by decide)

end TurboPanel.Ip
